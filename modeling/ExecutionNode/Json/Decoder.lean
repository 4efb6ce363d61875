import ExecutionNode.Json.Shape
import ExecutionNode.Quantity
import ExecutionNode.Record

/-!
# Typed readings of JSON values

A decoder reads a value of one type from a JSON value or refuses it.  Records are read by field
name: from an object, in which a known field may stand only once and unknown fields are
ignored, or from an array that lists the fields in their declared order.  An array may end
early, but only fields with a value of their own may be cut off.

A type that is read from texts has a shape beside its decoder.  The shape says which parts of a
text the decoder asks for.
-/

namespace ExecutionNode.Json

/-- Reads a value of one type. -/
abbrev Decoder (α : Type) := Json → Option α

/-! ### Scalars -/

/-- A word of 64 bits, as a number without sign, point or exponent. -/
def uint64? : Decoder UInt64
  | .num (.natural n) => if n < UInt64.size then some (UInt64.ofNat n) else none
  | _ => none

/-- An octet. -/
def uint8? : Decoder UInt8
  | .num (.natural n) => if n < UInt8.size then some (UInt8.ofNat n) else none
  | _ => none

/-- A string. -/
def string? : Decoder String
  | .str s => some s
  | _ => none

/-- A byte string: hexadecimal digits or an array of octets. -/
def bytes? : Decoder Bytes
  | .str s => Hex.bytes? s
  | .arr items => items.mapM uint8?
  | _ => none

/-- A byte string of one length. One item behind the octets of an array is passed over if it is no
octet. -/
def fixed? (n : Nat) : Decoder (FixedBytes n)
  | .arr items =>
    match items.drop n with
    | [] => items.mapM uint8? >>= FixedBytes.ofList? n
    | [last] =>
      if (uint8? last).isSome then none
      else (items.take n).mapM uint8? >>= FixedBytes.ofList? n
    | _ => none
  | j => bytes? j >>= FixedBytes.ofList? n

/-- A number of so many bits: a plain 64 bit number or a text with any radix marker. -/
def wide? (bits : Nat) : Decoder Nat
  | .num (.natural n) => if n < UInt64.size ∧ n < Nat.pow 2 bits then some n else none
  | .str s => Quantity.wide? bits s
  | _ => none

/-- A word of 256 bits. -/
def uint256? : Decoder U256 := fun j => (wide? 256 j).map (BitVec.ofNat 256)

/-- A word of 64 bits, written like the wider ones. -/
def wideUInt64? : Decoder UInt64 := fun j => (wide? 64 j).map UInt64.ofNat

/-- A quantity: a plain number or a quantity text. -/
def quantity? : Decoder UInt64
  | .str s => (Quantity.parseUInt64 s).toOption
  | j => uint64? j

/-! ### Containers -/

/-- Null or a value. -/
def nullable? {α : Type} (decoder : Decoder α) : Decoder (Option α)
  | .null => some none
  | j => (decoder j).map some

/-- An array of values. -/
def list? {α : Type} (decoder : Decoder α) : Decoder (List α)
  | .arr items => items.mapM decoder
  | _ => none

/-! ### Records -/

/-- Whether no known name stands twice. -/
def distinctFields (names : List String) (fields : List (String × Json)) : Bool :=
  names.all fun name => (fields.filter (·.1 = name)).length ≤ 1

/-- Reads a record with the given fields, in their declared order. -/
def recordOf? (names : List String) : Decoder (Record Json)
  | .obj fields => if distinctFields names fields then some (.ofFields fields) else none
  | .arr items => if items.length ≤ names.length then some (.ofPositions names items) else none
  | _ => none

/-- Reads a record with the fields of a shape. -/
def record? (shape : Shape) : Decoder (Record Json) := recordOf? shape.names

/-! ### Writing the scalars -/

/-- A byte string of one length, as text. -/
def ofFixed {n : Nat} (b : FixedBytes n) : Json := .str b.text

/-- A byte string, as text. -/
def ofBytes (b : Bytes) : Json := .str (Hex.text b)

/-- A word as a quantity text. -/
def ofQuantity (n : UInt64) : Json := .str (Quantity.text n)

/-- A word of 256 bits as a quantity text. -/
def ofUInt256 (n : U256) : Json := .str (Hex.quantity n.toNat)

/-- A word as a plain number. -/
def ofUInt64 (n : UInt64) : Json := .ofNat n.toNat

/-- A value, or null. -/
def ofOption {α : Type} (write : α → Json) : Option α → Json
  | none => .null
  | some a => write a

end ExecutionNode.Json

namespace ExecutionNode.Record

/-- A field of a JSON record that may be null or unnamed, but not cut off. -/
def optional {α : Type} (r : Record Json) (name : String) (decoder : Json.Decoder α) :
    Option (Option α) :=
  match r.slot name with
  | .given value => Json.nullable? decoder value
  | .unnamed => some none
  | .cutOff => none

/-- A field of a JSON record that may be null, unnamed or cut off. -/
def nullable {α : Type} (r : Record Json) (name : String) (decoder : Json.Decoder α) :
    Option (Option α) :=
  r.orElse name (Json.nullable? decoder) none

end ExecutionNode.Record
