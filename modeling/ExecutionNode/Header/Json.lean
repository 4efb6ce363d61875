import ExecutionNode.Header
import ExecutionNode.Json.Decoder

/-!
# Headers as JSON

Hashes and the free bytes are texts, the difficulty is a quantity text, and the words are plain
numbers.  The base fee and the root over the withdrawals may be null.
-/

namespace ExecutionNode

namespace Header

/-- The fields of a header. -/
def shape : Json.Shape :=
  .fields
    [("parentHash", .octets 32), ("ommersHash", .octets 32), ("beneficiary", .octets 20),
     ("stateRoot", .octets 32), ("transactionsRoot", .octets 32), ("receiptsRoot", .octets 32),
     ("withdrawalsRoot", .octets 32), ("logsBloom", .octets 256), ("difficulty", .whole),
     ("number", .whole), ("gasLimit", .whole), ("gasUsed", .whole), ("timestamp", .whole),
     ("mixHash", .octets 32), ("nonce", .whole), ("baseFeePerGas", .whole),
     ("extraData", .whole)]

/-- Reads a header. -/
def ofJson? : Json.Decoder Header := fun j => do
  let r ← Json.record? shape j
  let parentHash ← r.required "parentHash" (Json.fixed? 32)
  let ommersHash ← r.required "ommersHash" (Json.fixed? 32)
  let beneficiary ← r.required "beneficiary" (Json.fixed? 20)
  let stateRoot ← r.required "stateRoot" (Json.fixed? 32)
  let transactionsRoot ← r.required "transactionsRoot" (Json.fixed? 32)
  let receiptsRoot ← r.required "receiptsRoot" (Json.fixed? 32)
  let withdrawalsRoot ← r.optional "withdrawalsRoot" (Json.fixed? 32)
  let logsBloom ← r.required "logsBloom" (Json.fixed? 256)
  let difficulty ← r.required "difficulty" Json.uint256?
  let number ← r.required "number" Json.uint64?
  let gasLimit ← r.required "gasLimit" Json.uint64?
  let gasUsed ← r.required "gasUsed" Json.uint64?
  let timestamp ← r.required "timestamp" Json.uint64?
  let mixHash ← r.required "mixHash" (Json.fixed? 32)
  let nonce ← r.required "nonce" Json.uint64?
  let baseFeePerGas ← r.optional "baseFeePerGas" Json.uint64?
  let extraData ← r.required "extraData" Json.bytes?
  some { parentHash, ommersHash, beneficiary, stateRoot, transactionsRoot, receiptsRoot,
         withdrawalsRoot, logsBloom, difficulty, number, gasLimit, gasUsed, timestamp, mixHash,
         nonce, baseFeePerGas, extraData }

/-- The fields of a header with their values. -/
def jsonFields (h : Header) : List (String × Json) :=
  [("parentHash", .ofFixed h.parentHash), ("ommersHash", .ofFixed h.ommersHash),
   ("beneficiary", .ofFixed h.beneficiary), ("stateRoot", .ofFixed h.stateRoot),
   ("transactionsRoot", .ofFixed h.transactionsRoot), ("receiptsRoot", .ofFixed h.receiptsRoot),
   ("withdrawalsRoot", .ofOption .ofFixed h.withdrawalsRoot), ("logsBloom", .ofFixed h.logsBloom),
   ("difficulty", .ofUInt256 h.difficulty), ("number", .ofUInt64 h.number),
   ("gasLimit", .ofUInt64 h.gasLimit), ("gasUsed", .ofUInt64 h.gasUsed),
   ("timestamp", .ofUInt64 h.timestamp), ("mixHash", .ofFixed h.mixHash),
   ("nonce", .ofUInt64 h.nonce), ("baseFeePerGas", .ofOption .ofUInt64 h.baseFeePerGas),
   ("extraData", .ofBytes h.extraData)]

/-- The header as a record. -/
def toJson (h : Header) : Json := .obj h.jsonFields

end Header

namespace BlockId

/-- The fields of a block's number and hash. -/
def shape : Json.Shape := .fields [("number", .whole), ("hash", .octets 32)]

/-- Reads a block's number and hash. -/
def ofJson? : Json.Decoder BlockId := fun j => do
  let r ← Json.record? shape j
  let number ← r.required "number" Json.uint64?
  let hash ← r.required "hash" (Json.fixed? 32)
  some ⟨number, hash⟩

/-- A block's number and hash as a record. -/
def toJson (b : BlockId) : Json := .obj [("number", .ofUInt64 b.number), ("hash", .ofFixed b.hash)]

end BlockId

end ExecutionNode
