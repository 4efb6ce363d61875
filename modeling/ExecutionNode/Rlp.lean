import ExecutionNode.Bytes

/-!
# Recursive length prefixes

The canonical encoding of byte strings and nested lists.  `Item.encode` is the encoding of a
whole tree; the pieces `bytes`, `nat` and `list` write one node each, and the equations beside
`Item.encode` say that they agree with it.  Numbers are written as their minimal octets.
-/

namespace ExecutionNode.Rlp

/-! ### Writing one node -/

/-- The marker in front of a payload of a given length: `base` is `0x80` for strings and `0xc0`
for lists. -/
def marker (base : Nat) (length : Nat) : Bytes :=
  if length ≤ 55 then [UInt8.ofNat (base + length)]
  else
    let size := minimalBE length
    UInt8.ofNat (base + 55 + size.length) :: size

/-- A byte string. An octet below `0x80` stands for itself. -/
def bytes (b : Bytes) : Bytes :=
  match b with
  | [x] => if x < 0x80 then [x] else marker 0x80 1 ++ [x]
  | b => marker 0x80 b.length ++ b

/-- A number, as its minimal octets. -/
def nat (n : Nat) : Bytes := bytes (minimalBE n)

/-- A list whose encoded members are given. -/
def list (members : Bytes) : Bytes := marker 0xc0 members.length ++ members

/-! ### Lengths -/

/-- The number of octets that `minimalBE` writes. -/
def natSize (n : Nat) : Nat := if n = 0 then 0 else natSize (n / 256) + 1
termination_by n
decreasing_by omega

/-- The length of a marker. -/
def markerLength (length : Nat) : Nat := if length ≤ 55 then 1 else 1 + natSize length

/-- The encoded length of a byte string. -/
def bytesLength (b : Bytes) : Nat :=
  match b with
  | [x] => if x < 0x80 then 1 else 2
  | b => markerLength b.length + b.length

/-- The encoded length of a number. -/
def natLength (n : Nat) : Nat :=
  if n < 0x80 then 1 else 1 + natSize n

/-! ### Trees -/

/-- A tree of byte strings. -/
inductive Item where
  /-- A byte string. -/
  | str (b : Bytes)
  /-- A list of trees. -/
  | list (items : List Item)

namespace Item

/-- A number as a leaf. -/
def nat (n : Nat) : Item := .str (minimalBE n)

mutual

/-- The encoding of a tree. -/
def encode : Item → Bytes
  | .str b => bytes b
  | .list items => Rlp.list (encodeAll items)

/-- The encodings of several trees behind each other. -/
def encodeAll : List Item → Bytes
  | [] => []
  | item :: items => encode item ++ encodeAll items

end

@[simp] theorem encode_str (b : Bytes) : encode (.str b) = bytes b := by rw [encode]

@[simp] theorem encode_nat (n : Nat) : encode (nat n) = Rlp.nat n := by
  rw [nat, encode_str, Rlp.nat]

@[simp] theorem encode_list (items : List Item) :
    encode (.list items) = Rlp.list (encodeAll items) := by rw [encode]

@[simp] theorem encodeAll_nil : encodeAll [] = [] := by rw [encodeAll]

@[simp] theorem encodeAll_cons (item : Item) (items : List Item) :
    encodeAll (item :: items) = encode item ++ encodeAll items := by rw [encodeAll]

end Item

end ExecutionNode.Rlp
