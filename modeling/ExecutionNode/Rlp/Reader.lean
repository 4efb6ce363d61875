import ExecutionNode.Rlp

/-!
# Reading recursive length prefixes

A reader takes what it needs from the front of a byte string and returns the rest.  Reading is
strict: an octet that could stand for itself is not accepted behind a marker, a length is
written in its shortest form, and a number has no leading zeros.  Only the accepted form is of
interest, so a refusal carries no cause.

A list is read by its members: `listHeader` checks that the whole payload is there, the members
are then read from all that follows, and `exactly` compares at the end what they took with the
announced length.
-/

namespace ExecutionNode.Rlp

/-- Takes a value from the front of a byte string. -/
abbrev Reader (α : Type) := StateT Bytes Option α

/-! ### Markers -/

/-- What the marker in front of an item announces. -/
structure Announced where
  /-- Whether the payload is a list. -/
  isList : Bool
  /-- The length of the payload. -/
  length : Nat
deriving DecidableEq

/-- Reads a length written in `size` octets. -/
def longLength (size : Nat) (rest : Bytes) : Option (Nat × Bytes) :=
  let octets := rest.take size
  if octets.length < size then none
  else if octets.head? = some 0 then none
  else if natOfBE octets ≤ 55 then none
  else some (natOfBE octets, rest.drop size)

/-- Reads a marker without asking whether the payload is there. An octet that stands for itself
is its own payload and stays in the rest. -/
def bareMarker : Reader Announced
  | [] => none
  | b :: rest =>
    if b < 0x80 then some (⟨false, 1⟩, b :: rest)
    else if b ≤ 0xb7 then
      let length := b.toNat - 0x80
      if length = 1 then
        match rest with
        | [] => none
        | c :: _ => if c < 0x80 then none else some (⟨false, 1⟩, rest)
      else some (⟨false, length⟩, rest)
    else if b ≤ 0xbf then
      (longLength (b.toNat - 0xb7) rest).map fun (n, rest) => (⟨false, n⟩, rest)
    else if b ≤ 0xf7 then some (⟨true, b.toNat - 0xc0⟩, rest)
    else (longLength (b.toNat - 0xf7) rest).map fun (n, rest) => (⟨true, n⟩, rest)

/-- Reads a marker whose payload is there in full. -/
def marker? : Reader Announced := fun input => do
  let (announced, rest) ← bareMarker input
  if announced.length ≤ rest.length then some (announced, rest) else none

/-! ### Strings and numbers -/

/-- Reads a byte string. -/
def string? : Reader Bytes := fun input => do
  let (announced, rest) ← marker? input
  if announced.isList then none
  else some (rest.take announced.length, rest.drop announced.length)

/-- Reads a number of at most `width` octets. -/
def nat? (width : Nat) : Reader Nat := do
  let octets ← string?
  if octets.length ≤ width ∧ octets.head? ≠ some 0 then pure (natOfBE octets) else failure

/-- Reads a word of 64 bits. -/
def uint64? : Reader UInt64 := UInt64.ofNat <$> nat? 8

/-- Reads a word of 128 bits. -/
def uint128? : Reader U128 := BitVec.ofNat 128 <$> nat? 16

/-- Reads a word of 256 bits. -/
def uint256? : Reader U256 := BitVec.ofNat 256 <$> nat? 32

/-- Reads a truth value, written as the number 0 or 1. -/
def bool? : Reader Bool := do
  let n ← nat? 1
  if n = 0 then pure false else if n = 1 then pure true else failure

/-- Reads a byte string of one length. -/
def fixed? (n : Nat) : Reader (FixedBytes n) := do
  let octets ← string?
  match FixedBytes.ofList? n octets with
  | some value => pure value
  | none => failure

/-! ### Lists -/

/-- Reads the marker of a list: the length of its payload, which is there in full. -/
def listHeader : Reader Nat := do
  let announced ← marker?
  if announced.isList then pure announced.length else failure

/-- Reads a list by its members, which must take exactly the announced payload. -/
def exactly {α : Type} (members : Reader α) : Reader α := fun input => do
  let (length, rest) ← listHeader input
  let (value, left) ← members rest
  if left.length + length = rest.length then some (value, left) else none

/-- Reads values until the input is used up. A reader that takes nothing is refused. -/
def many {α : Type} (reader : Reader α) (input : Bytes) : Option (List α) :=
  match input with
  | [] => some []
  | b :: input =>
    match reader (b :: input) with
    | none => none
    | some (value, rest) =>
      if _shorter : rest.length < (b :: input).length then
        (many reader rest).map (value :: ·)
      else none
termination_by input.length
decreasing_by exact _shorter

/-- Reads a list of any number of values, all of them inside the announced payload. -/
def listOf {α : Type} (reader : Reader α) : Reader (List α) := fun input => do
  let (length, rest) ← listHeader input
  let values ← many reader (rest.take length)
  some (values, rest.drop length)

end ExecutionNode.Rlp
