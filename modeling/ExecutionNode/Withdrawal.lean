import ExecutionNode.Json.Decoder
import ExecutionNode.Rlp.Reader

/-!
# Withdrawals

A withdrawal pays an amount of the consensus layer, counted in units of a thousand million of
the smallest unit, to an account.  It has two wire forms: a list of four recursive length
prefixed items, and a JSON record of quantity texts.
-/

namespace ExecutionNode

/-- A withdrawal of a validator. -/
structure Withdrawal where
  /-- The running number of the withdrawal. -/
  index : UInt64
  /-- The validator that withdraws. -/
  validatorIndex : UInt64
  /-- The account that is paid. -/
  address : Address
  /-- The amount, in units of a thousand million. -/
  amount : UInt64
deriving DecidableEq

namespace Withdrawal

/-- The smallest units in one unit of an amount. -/
def weiPerGwei : Nat := 1000000000

/-- The amount in the smallest unit. -/
def amountWei (w : Withdrawal) : Nat := w.amount.toNat * weiPerGwei

/-! ### Binary form -/

/-- The withdrawal as a tree. -/
def toItem (w : Withdrawal) : Rlp.Item :=
  .list [.nat w.index.toNat, .nat w.validatorIndex.toNat, .str w.address.toList,
    .nat w.amount.toNat]

/-- The encoded withdrawal. -/
def encode (w : Withdrawal) : Bytes := w.toItem.encode

/-- Reads the four members. -/
def members? : Rlp.Reader Withdrawal := do
  let index ← Rlp.uint64?
  let validatorIndex ← Rlp.uint64?
  let address ← Rlp.fixed? 20
  let amount ← Rlp.uint64?
  pure ⟨index, validatorIndex, address, amount⟩

/-- Reads an encoded withdrawal. -/
def decode? : Rlp.Reader Withdrawal := Rlp.exactly members?

/-! ### JSON form -/

/-- The fields of a withdrawal. -/
def shape : Json.Shape :=
  .fields
    [("index", .whole), ("validatorIndex", .whole), ("address", .octets 20), ("amount", .whole)]

/-- Reads a withdrawal. -/
def ofJson? : Json.Decoder Withdrawal := fun j => do
  let r ← Json.record? shape j
  let index ← r.required "index" Json.wideUInt64?
  let validatorIndex ← r.required "validatorIndex" Json.wideUInt64?
  let address ← r.required "address" (Json.fixed? 20)
  let amount ← r.required "amount" Json.wideUInt64?
  some ⟨index, validatorIndex, address, amount⟩

/-- The withdrawal as a record. -/
def toJson (w : Withdrawal) : Json :=
  .obj [("index", .ofQuantity w.index), ("validatorIndex", .ofQuantity w.validatorIndex),
    ("address", .ofFixed w.address), ("amount", .ofQuantity w.amount)]

end Withdrawal

end ExecutionNode
