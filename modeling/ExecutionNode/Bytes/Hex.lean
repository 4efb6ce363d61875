import ExecutionNode.Bytes

/-!
# Hexadecimal text

Byte strings are written with lower case digits behind `0x` and read with or without that
marker in either case.  Numbers are written with as few digits as possible, zero as `0x0`.
-/

namespace ExecutionNode.Hex

/-! ### Digits -/

/-- The digit of a value below sixteen. -/
def digit (n : Nat) : Char := "0123456789abcdef".toList.getD n '?'

/-- The value of a digit in a radix up to sixteen, letters in either case. -/
def digitValue? (radix : Nat) (c : Char) : Option Nat :=
  let value? : Option Nat :=
    if '0' ≤ c ∧ c ≤ '9' then some (c.toNat - '0'.toNat)
    else if 'a' ≤ c ∧ c ≤ 'f' then some (c.toNat - 'a'.toNat + 10)
    else if 'A' ≤ c ∧ c ≤ 'F' then some (c.toNat - 'A'.toNat + 10)
    else none
  value?.filter (· < radix)

/-! ### Byte strings -/

/-- The two digits of each octet. -/
def encode (bytes : Bytes) : List Char :=
  bytes.flatMap fun b => [digit (b.toNat / 16), digit (b.toNat % 16)]

/-- The written form of a byte string. -/
def text (bytes : Bytes) : String := String.ofList ('0' :: 'x' :: encode bytes)

/-- Reads pairs of digits, with the octets read so far in reverse. -/
def decodeFrom (read : Bytes) : List Char → Option Bytes
  | [] => some read.reverse
  | [_] => none
  | high :: low :: rest =>
    match digitValue? 16 high, digitValue? 16 low with
    | some h, some l => decodeFrom (UInt8.ofNat (h * 16 + l) :: read) rest
    | _, _ => none

/-- Reads pairs of digits; an odd number of digits or another character is refused. -/
def decode? (digits : List Char) : Option Bytes := decodeFrom [] digits

/-- The text behind a leading `0x` or `0X`, if there is one. -/
def marked? : List Char → Option (List Char)
  | '0' :: 'x' :: rest => some rest
  | '0' :: 'X' :: rest => some rest
  | _ => none

/-- The text without its leading `0x` or `0X`. -/
def unmarked (s : List Char) : List Char := (marked? s).getD s

/-- Reads a byte string; the marker may be missing. -/
def bytes? (s : String) : Option Bytes := decode? (unmarked s.toList)

/-- Reads a byte string of one length. -/
def fixed? (n : Nat) (s : String) : Option (FixedBytes n) := bytes? s >>= FixedBytes.ofList? n

/-! ### Numbers -/

/-- The written form of a number. -/
def quantity (n : Nat) : String := String.ofList ('0' :: 'x' :: Nat.toDigits 16 n)

end ExecutionNode.Hex

/-- The written form of a byte string of one length. -/
def ExecutionNode.FixedBytes.text {n : Nat} (b : FixedBytes n) : String := Hex.text b.toList
