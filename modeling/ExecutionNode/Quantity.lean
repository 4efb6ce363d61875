import ExecutionNode.Bytes.Hex

/-!
# Quantity texts

A quantity is a 64 bit number written either in decimal or, behind `0x` or `0X`, in
hexadecimal.  `Quantity.parse` reads the digits from the left and stops at the first thing that
is wrong, so of two faults the one further left is reported; where one digit is both, a bad
digit wins over a number that has grown too large.
-/

namespace ExecutionNode.Quantity

/-- Why a text is not a quantity. -/
inductive ParseError where
  /-- There was no character at all. -/
  | empty
  /-- A character is no digit of the radix, or a sign stands alone. -/
  | invalidDigit
  /-- The value needs more than 64 bits. -/
  | tooLarge
deriving DecidableEq

namespace ParseError

/-- The name of the error. -/
def kind : ParseError → String
  | empty => "Empty"
  | invalidDigit => "InvalidDigit"
  | tooLarge => "PosOverflow"

/-- The wording of the error. -/
def message : ParseError → String
  | empty => "cannot parse integer from empty string"
  | invalidDigit => "invalid digit found in string"
  | tooLarge => "number too large to fit in target type"

end ParseError

/-- Reads digits onto the value of those before them. -/
def digits (radix : Nat) (value : Nat) : List Char → Except ParseError Nat
  | [] => .ok value
  | c :: rest =>
    match Hex.digitValue? radix c with
    | none => .error .invalidDigit
    | some d =>
      if value * radix + d < UInt64.size then digits radix (value * radix + d) rest
      else .error .tooLarge

/-- Reads a number in a radix. One leading plus sign is allowed if a digit follows. -/
def unsigned (radix : Nat) : List Char → Except ParseError Nat
  | [] => .error .empty
  | ['+'] => .error .invalidDigit
  | '+' :: rest => digits radix 0 rest
  | cs => digits radix 0 cs

/-- Reads a quantity. -/
def parse (s : List Char) : Except ParseError Nat :=
  match Hex.marked? s with
  | some rest => unsigned 16 rest
  | none => unsigned 10 s

/-- Reads a quantity into a word. -/
def parseUInt64 (s : String) : Except ParseError UInt64 :=
  (parse s.toList).map UInt64.ofNat

/-- The written form of a word. -/
def text (n : UInt64) : String := Hex.quantity n.toNat

/-! ### Words written with any radix marker

The wide numbers of the engine interface are read more freely: a marker chooses the radix,
underscores may stand anywhere and no digit at all means zero, but no sign is allowed. -/

/-- Splits off the marker that chooses a radix. -/
def radixOf : List Char → Nat × List Char
  | '0' :: 'x' :: rest => (16, rest)
  | '0' :: 'X' :: rest => (16, rest)
  | '0' :: 'o' :: rest => (8, rest)
  | '0' :: 'O' :: rest => (8, rest)
  | '0' :: 'b' :: rest => (2, rest)
  | '0' :: 'B' :: rest => (2, rest)
  | cs => (10, cs)

/-- Reads digits between which underscores are ignored. -/
def spacedDigits (radix bound : Nat) (value : Nat) : List Char → Option Nat
  | [] => some value
  | '_' :: rest => spacedDigits radix bound value rest
  | c :: rest => do
    let d ← Hex.digitValue? radix c
    if value * radix + d < bound then spacedDigits radix bound (value * radix + d) rest else none

/-- Reads a number of so many bits. -/
def wide? (bits : Nat) (s : String) : Option Nat :=
  let (radix, rest) := radixOf s.toList
  spacedDigits radix (Nat.pow 2 bits) 0 rest

end ExecutionNode.Quantity
