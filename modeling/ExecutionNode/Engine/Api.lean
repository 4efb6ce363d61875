import ExecutionNode.Engine.Forkchoice
import ExecutionNode.Engine.NewPayload

/-!
# The methods of the engine interface

Each method exists in two versions.  The first version knows no withdrawals: it refuses requests
that carry them before the engine looks at them, and it leaves them out of what it serves.
-/

namespace ExecutionNode.Engine

/-- Why a method has no result. -/
inductive ApiError where
  /-- No payload has the name. -/
  | unknownPayload
  /-- The first version was given withdrawals. -/
  | withdrawalsNotSupported
  /-- A payload could not be judged. -/
  | newPayload (cause : CallError)
  /-- A forkchoice state could not be answered. -/
  | forkchoice (cause : CallError)
deriving DecidableEq

namespace ApiError

/-- The number of the error. -/
def code : ApiError → Int
  | unknownPayload => -38001
  | withdrawalsNotSupported => -32602
  | newPayload _ => -32603
  | forkchoice _ => -32603

/-- The name of the error. -/
def kind : ApiError → String
  | unknownPayload => "UnknownPayload"
  | withdrawalsNotSupported => "WithdrawalsNotSupportedInV1"
  | newPayload _ => "NewPayload"
  | forkchoice _ => "ForkChoiceUpdate"

/-- The wording of the error. -/
def message : ApiError → String
  | unknownPayload => "Unknown payload"
  | withdrawalsNotSupported => "withdrawals not supported in V1"
  | newPayload cause => cause.message
  | forkchoice cause => cause.message

end ApiError

/-- Refuses a request for its withdrawals. -/
def refuseWithdrawals {α : Type} (e : Engine) : Reply ApiError α :=
  e.rejectedCall.mapResult fun _ => .error .withdrawalsNotSupported

namespace Api

/-- The method for new payloads. -/
def newPayload (v : Version) (e : Engine) (a : Answers) (payload : Payload) :
    Reply ApiError PayloadStatus :=
  if v = .v1 ∧ payload.withdrawals.isSome then e.refuseWithdrawals
  else (e.newPayload a payload).mapResult (·.mapError .newPayload)

/-- The method for forkchoice states. -/
def forkchoiceUpdated (v : Version) (e : Engine) (a : Answers) (state : ForkchoiceState)
    (attributes : Option PayloadAttributes) : Reply ApiError ForkchoiceUpdated :=
  if v = .v1 ∧ attributes.any (·.withdrawals.isSome) then e.refuseWithdrawals
  else (e.forkchoiceUpdated a state attributes).mapResult (·.mapError .forkchoice)

/-- A built payload, if there is one of the name. -/
def builtPayload (e : Engine) (a : Answers) (id : PayloadId) : Reply ApiError BuiltPayload :=
  (e.getPayload a id).mapResult fun
    | .ok (some built) => .ok built
    | _ => .error .unknownPayload

/-- The method for built payloads, first version: without withdrawals. -/
def getPayloadV1 (e : Engine) (a : Answers) (id : PayloadId) : Reply ApiError Payload :=
  (builtPayload e a id).mapResult (·.map fun built => { built.payload with withdrawals := none })

/-- The method for built payloads, second version: with the fees. -/
def getPayloadV2 (e : Engine) (a : Answers) (id : PayloadId) : Reply ApiError PayloadEnvelope :=
  (builtPayload e a id).mapResult (·.map PayloadEnvelope.ofBuilt)

/-- The names of the methods that the engine offers. -/
def capabilities : List String :=
  ["engine_forkchoiceUpdatedV1", "engine_forkchoiceUpdatedV2", "engine_getPayloadV1",
   "engine_getPayloadV2", "engine_newPayloadV1", "engine_newPayloadV2"]

end Api

end ExecutionNode.Engine
