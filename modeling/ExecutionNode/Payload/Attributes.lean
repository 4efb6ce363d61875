import ExecutionNode.Payload.Json

/-!
# Requests to build a payload

The consensus layer asks for a new payload by naming the parent and the attributes of the block.
A request is identified by the first eight octets of the hash of its parts put behind each
other; absent withdrawals add nothing, present ones add their encoded list, so that an empty
list differs from none.
-/

namespace ExecutionNode

/-- The name of a payload that is being built. -/
abbrev PayloadId := FixedBytes 8

/-- What a new payload shall contain. -/
structure PayloadAttributes where
  /-- The time of the block. -/
  timestamp : UInt64
  /-- The random value of the slot before. -/
  prevRandao : Hash
  /-- The account that collects the fees. -/
  suggestedFeeRecipient : Address
  /-- The withdrawals, if the block can have any. -/
  withdrawals : Option (List Withdrawal)
deriving DecidableEq

namespace PayloadAttributes

/-! ### JSON form -/

/-- The fields of attributes. -/
def shape : Json.Shape :=
  .fields
    [("timestamp", .whole), ("prevRandao", .octets 32), ("suggestedFeeRecipient", .octets 20),
     ("withdrawals", .list Withdrawal.shape)]

/-- Reads attributes. -/
def ofJson? : Json.Decoder PayloadAttributes := fun j => do
  let r ← Json.record? shape j
  let timestamp ← r.required "timestamp" Json.wideUInt64?
  let prevRandao ← r.required "prevRandao" (Json.fixed? 32)
  let suggestedFeeRecipient ← r.required "suggestedFeeRecipient" (Json.fixed? 20)
  let withdrawals ← r.nullable "withdrawals" (Json.list? Withdrawal.ofJson?)
  some { timestamp, prevRandao, suggestedFeeRecipient, withdrawals }

/-- The attributes as a record. -/
def toJson (a : PayloadAttributes) : Json :=
  .obj ([("timestamp", .ofQuantity a.timestamp), ("prevRandao", .ofFixed a.prevRandao),
    ("suggestedFeeRecipient", .ofFixed a.suggestedFeeRecipient)]
    ++ (match a.withdrawals with
        | none => []
        | some ws => [("withdrawals", .arr (ws.map Withdrawal.toJson))]))

/-! ### Identifiers -/

/-- The encoded withdrawals of a request. -/
def withdrawalBytes (a : PayloadAttributes) : Bytes :=
  match a.withdrawals with
  | none => []
  | some ws => (Rlp.Item.list (ws.map Withdrawal.toItem)).encode

/-- The parts of a request behind each other. -/
def requestBytes (parent : Hash) (a : PayloadAttributes) : Bytes :=
  parent.toList ++ (bytesOfUInt64 a.timestamp).toList ++ a.prevRandao.toList
    ++ a.suggestedFeeRecipient.toList ++ a.withdrawalBytes

/-- The name of the payload that a request asks for. -/
def payloadId (parent : Hash) (a : PayloadAttributes) : PayloadId :=
  let hash := keccak256 (a.requestBytes parent)
  ⟨hash.toList.take 8, by simp [List.length_take, hash.length_toList]⟩

end PayloadAttributes

/-! ### Built payloads -/

/-- A payload that was built for the consensus layer. -/
structure BuiltPayload where
  /-- The block. -/
  block : Block
  /-- What its proposer collects. -/
  fees : U256
deriving DecidableEq

/-- The block as a payload. -/
def BuiltPayload.payload (b : BuiltPayload) : Payload := .ofBlock b.block

/-- A payload together with the fees that its recipient collects. -/
structure PayloadEnvelope where
  /-- The payload. -/
  executionPayload : Payload
  /-- The fees. -/
  blockValue : U256
deriving DecidableEq

namespace PayloadEnvelope

/-- The fields of a payload with its fees. -/
def shape : Json.Shape :=
  .fields [("executionPayload", Payload.shape), ("blockValue", .whole)]

/-- Reads a payload with its fees. -/
def ofJson? : Json.Decoder PayloadEnvelope := fun j => do
  let r ← Json.record? shape j
  let executionPayload ← r.required "executionPayload" Payload.ofJson?
  let blockValue ← r.required "blockValue" Json.uint256?
  some { executionPayload, blockValue }

/-- A payload with its fees as a record. -/
def toJson (e : PayloadEnvelope) : Json :=
  .obj [("executionPayload", e.executionPayload.toJson), ("blockValue", .ofUInt256 e.blockValue)]

/-- What is served for a built payload. -/
def ofBuilt (b : BuiltPayload) : PayloadEnvelope := ⟨b.payload, b.fees⟩

end PayloadEnvelope

end ExecutionNode
