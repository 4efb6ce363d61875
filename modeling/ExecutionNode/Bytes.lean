/-!
# Byte strings

Byte strings are lists of octets, so that statements about encodings are statements about
lists.  A `FixedBytes n` carries its length in the type: hashes, addresses and blooms differ
only in `n`.  Numbers enter and leave byte strings most significant octet first, either with a
fixed width (`toBytesBE`) or with as few octets as possible (`minimalBE`).
-/

namespace ExecutionNode

/-- A byte string. -/
abbrev Bytes := List UInt8

/-! ### Byte strings of one length -/

/-- A byte string of exactly `n` octets. -/
structure FixedBytes (n : Nat) where
  /-- The octets. -/
  toList : Bytes
  /-- There are `n` of them. -/
  length_toList : toList.length = n
deriving DecidableEq

namespace FixedBytes

/-- The byte string whose octets are all zero. -/
def zero (n : Nat) : FixedBytes n := ⟨List.replicate n 0, List.length_replicate ..⟩

instance (n : Nat) : Inhabited (FixedBytes n) := ⟨zero n⟩

/-- Accepts a byte string that has the right length. -/
def ofList? (n : Nat) (bytes : Bytes) : Option (FixedBytes n) :=
  if h : bytes.length = n then some ⟨bytes, h⟩ else none

/-- Whether every octet is zero. -/
def isZero {n : Nat} (b : FixedBytes n) : Bool := b.toList.all (· == 0)

theorem ext_toList {n : Nat} {a b : FixedBytes n} (h : a.toList = b.toList) : a = b := by
  cases a; cases b; cases h; rfl

@[simp] theorem ofList?_toList {n : Nat} (b : FixedBytes n) : ofList? n b.toList = some b := by
  simp [ofList?, b.length_toList]

theorem toList_of_ofList? {n : Nat} {bytes : Bytes} {b : FixedBytes n}
    (h : ofList? n bytes = some b) : b.toList = bytes := by
  unfold ofList? at h
  split at h
  · cases h; rfl
  · cases h

end FixedBytes

/-- A 32 octet hash. -/
abbrev Hash := FixedBytes 32

/-- A 20 octet account address. -/
abbrev Address := FixedBytes 20

/-- The 2048 bit filter over the logs of a block. -/
abbrev Bloom := FixedBytes 256

/-- A 256 bit word. -/
abbrev U256 := BitVec 256

/-- A 128 bit word. -/
abbrev U128 := BitVec 128

/-! ### Numbers as octets -/

/-- The number whose octets, most significant first, are the given ones. -/
def natOfBE (bytes : Bytes) : Nat := bytes.foldl (fun n b => n * 256 + b.toNat) 0

/-- The low `width` octets of a number, most significant first. -/
def toBytesBE : (width : Nat) → Nat → Bytes
  | 0, _ => []
  | width + 1, n => toBytesBE width (n / 256) ++ [UInt8.ofNat n]

@[simp] theorem length_toBytesBE (width n : Nat) : (toBytesBE width n).length = width := by
  induction width generalizing n with
  | zero => rfl
  | succ width ih => simp [toBytesBE, ih]

/-- The octets of a number without leading zeros; zero has none. -/
def minimalBE (n : Nat) : Bytes :=
  if n = 0 then [] else minimalBE (n / 256) ++ [UInt8.ofNat n]
termination_by n
decreasing_by omega

@[simp] theorem minimalBE_zero : minimalBE 0 = [] := by
  unfold minimalBE; simp

/-- A word of 8 octets. -/
def bytesOfUInt64 (n : UInt64) : FixedBytes 8 := ⟨toBytesBE 8 n.toNat, length_toBytesBE ..⟩

end ExecutionNode
