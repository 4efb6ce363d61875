import ExecutionNode.Payload

/-!
# Payloads as JSON

The four words of a payload are read as plain numbers or as quantity texts and always written as
quantity texts.  The random value, the base fee and the transactions have a value of their own
when they are missing; missing free bytes stay missing.
-/

namespace ExecutionNode.Payload

/-- The fields of a payload. -/
def shape : Json.Shape :=
  .fields
    [("parentHash", .octets 32), ("feeRecipient", .octets 20), ("stateRoot", .octets 32),
     ("receiptsRoot", .octets 32), ("logsBloom", .octets 256), ("prevRandao", .octets 32),
     ("blockNumber", .whole), ("gasLimit", .whole), ("gasUsed", .whole), ("timestamp", .whole),
     ("extraData", .whole), ("baseFeePerGas", .whole), ("blockHash", .octets 32),
     ("transactions", .whole), ("withdrawals", .list Withdrawal.shape)]

/-- Reads a payload. -/
def ofJson? : Json.Decoder Payload := fun j => do
  let r ← Json.record? shape j
  let parentHash ← r.required "parentHash" (Json.fixed? 32)
  let feeRecipient ← r.required "feeRecipient" (Json.fixed? 20)
  let stateRoot ← r.required "stateRoot" (Json.fixed? 32)
  let receiptsRoot ← r.required "receiptsRoot" (Json.fixed? 32)
  let logsBloom ← r.required "logsBloom" (Json.fixed? 256)
  let prevRandao ← r.orElse "prevRandao" (Json.fixed? 32) (.zero 32)
  let blockNumber ← r.required "blockNumber" Json.quantity?
  let gasLimit ← r.required "gasLimit" Json.quantity?
  let gasUsed ← r.required "gasUsed" Json.quantity?
  let timestamp ← r.required "timestamp" Json.quantity?
  let extraData ← r.nullable "extraData" Json.bytes?
  let baseFeePerGas ← r.orElse "baseFeePerGas" Json.uint256? 0
  let blockHash ← r.required "blockHash" (Json.fixed? 32)
  let transactions ← r.orElse "transactions" (Json.list? Json.bytes?) []
  let withdrawals ← r.nullable "withdrawals" (Json.list? Withdrawal.ofJson?)
  some { parentHash, feeRecipient, stateRoot, receiptsRoot, logsBloom, prevRandao, blockNumber,
         gasLimit, gasUsed, timestamp, extraData, baseFeePerGas, blockHash, transactions,
         withdrawals }

/-- The withdrawals as a last field, if there are any to show. -/
def withdrawalsField : Option (List Withdrawal) → List (String × Json)
  | none => []
  | some ws => [("withdrawals", .arr (ws.map Withdrawal.toJson))]

/-- The fields of a payload with their values. -/
def jsonFields (p : Payload) : List (String × Json) :=
  [("parentHash", .ofFixed p.parentHash), ("feeRecipient", .ofFixed p.feeRecipient),
   ("stateRoot", .ofFixed p.stateRoot), ("receiptsRoot", .ofFixed p.receiptsRoot),
   ("logsBloom", .ofFixed p.logsBloom), ("prevRandao", .ofFixed p.prevRandao),
   ("blockNumber", .ofQuantity p.blockNumber), ("gasLimit", .ofQuantity p.gasLimit),
   ("gasUsed", .ofQuantity p.gasUsed), ("timestamp", .ofQuantity p.timestamp),
   ("extraData", .ofOption .ofBytes p.extraData), ("baseFeePerGas", .ofUInt256 p.baseFeePerGas),
   ("blockHash", .ofFixed p.blockHash), ("transactions", .arr (p.transactions.map .ofBytes))]
   ++ withdrawalsField p.withdrawals

/-- The payload as a record. -/
def toJson (p : Payload) : Json := .obj p.jsonFields

end ExecutionNode.Payload
