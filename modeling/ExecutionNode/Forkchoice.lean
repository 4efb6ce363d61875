import ExecutionNode.Payload.Status

/-!
# Forkchoice states

The consensus layer announces its head together with the blocks that it holds safe and final; a
zero hash means that there is none.  The answer is the status of the head and, if a payload is
being built on it, the name of that payload.
-/

namespace ExecutionNode

/-- An announced head with the safe and the final block. -/
structure ForkchoiceState where
  /-- The hash of the head. -/
  head : Hash
  /-- The hash of the safe block. -/
  safe : Hash
  /-- The hash of the final block. -/
  finalized : Hash
deriving DecidableEq

namespace ForkchoiceState

/-- Whether a safe block is announced. -/
def hasSafe (s : ForkchoiceState) : Bool := !s.safe.isZero

/-- Whether a final block is announced. -/
def hasFinalized (s : ForkchoiceState) : Bool := !s.finalized.isZero

/-- The fields of a state. -/
def shape : Json.Shape :=
  .fields
    [("headBlockHash", .octets 32), ("safeBlockHash", .octets 32),
     ("finalizedBlockHash", .octets 32)]

/-- Reads a state. -/
def ofJson? : Json.Decoder ForkchoiceState := fun j => do
  let r ← Json.record? shape j
  let head ← r.required "headBlockHash" (Json.fixed? 32)
  let safe ← r.required "safeBlockHash" (Json.fixed? 32)
  let finalized ← r.required "finalizedBlockHash" (Json.fixed? 32)
  some { head, safe, finalized }

/-- The state as a record. -/
def toJson (s : ForkchoiceState) : Json :=
  .obj [("headBlockHash", .ofFixed s.head), ("safeBlockHash", .ofFixed s.safe),
    ("finalizedBlockHash", .ofFixed s.finalized)]

end ForkchoiceState

/-- The answer to a forkchoice state. -/
structure ForkchoiceUpdated where
  /-- The status of the head. -/
  status : PayloadStatus
  /-- The name of the payload that is being built. -/
  payloadId : Option PayloadId
deriving DecidableEq

namespace ForkchoiceUpdated

/-- An answer without a payload. -/
def ofStatus (status : PayloadStatus) : ForkchoiceUpdated := ⟨status, none⟩

/-- The fields of an answer. -/
def shape : Json.Shape :=
  .fields [("payloadStatus", PayloadStatus.shape), ("payloadId", .octets 8)]

/-- Reads an answer. -/
def ofJson? : Json.Decoder ForkchoiceUpdated := fun j => do
  let r ← Json.record? shape j
  let status ← r.required "payloadStatus" PayloadStatus.ofJson?
  let payloadId ← r.optional "payloadId" (Json.fixed? 8)
  some { status, payloadId }

/-- The answer as a record. -/
def toJson (u : ForkchoiceUpdated) : Json :=
  .obj [("payloadStatus", u.status.toJson), ("payloadId", .ofOption .ofFixed u.payloadId)]

end ForkchoiceUpdated

end ExecutionNode
