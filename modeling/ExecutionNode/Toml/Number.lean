import ExecutionNode.Toml
import ExecutionNode.Bytes.Hex

/-!
# Numbers in TOML

Whole numbers fit into 64 bits with a sign.  Single underscores may stand between digits, and only
hexadecimal, octal and binary digits behind their marker may begin with a zero.  A number with a
point or an exponent is kept as it is written; it must not lie above all binary floating-point
numbers of 64 bits.
-/

namespace ExecutionNode.Toml

/-! ### Digits -/

/-- Digits that follow another one, with single underscores in front of them. -/
def moreDigits (radix : Nat) : List Char → List Nat × List Char
  | [] => ([], [])
  | '_' :: c :: rest =>
    match Hex.digitValue? radix c with
    | some d => let (digits, rest) := moreDigits radix rest; (d :: digits, rest)
    | none => ([], '_' :: c :: rest)
  | c :: rest =>
    match Hex.digitValue? radix c with
    | some d => let (digits, rest) := moreDigits radix rest; (d :: digits, rest)
    | none => ([], c :: rest)

/-- At least one digit. -/
def digits? (radix : Nat) : List Char → Option (List Nat × List Char)
  | [] => none
  | c :: rest => do
    let d ← Hex.digitValue? radix c
    let (digits, rest) := moreDigits radix rest
    some (d :: digits, rest)

/-- The number of digits. -/
def ofDigits (radix : Nat) (digits : List Nat) : Nat := digits.foldl (fun n d => n * radix + d) 0

/-- Digits of which a zero in front is the only one. -/
def decimals? : List Char → Option (List Nat × List Char)
  | '0' :: rest => some ([0], rest)
  | cs => digits? 10 cs

/-- A sign, and whether it is a minus. -/
def sign : List Char → Bool × List Char
  | '+' :: rest => (false, rest)
  | '-' :: rest => (true, rest)
  | rest => (false, rest)

/-! ### Whole numbers -/

/-- How many natural numbers there are that fit into 64 bits with a sign. -/
def integerCount : Nat := 9223372036854775808

/-- Whether the number fits into 64 bits with a sign. -/
def fits (n : Int) : Bool := -(integerCount : Int) ≤ n && n < (integerCount : Int)

/-- Reads a whole number. -/
def integer? (cs : List Char) : Option (Int × List Char) := do
  let marked (radix : Nat) (rest : List Char) : Option (Int × List Char) := do
    let (digits, rest) ← digits? radix rest
    some (ofDigits radix digits, rest)
  let (n, rest) ←
    match cs with
    | '0' :: 'x' :: rest => marked 16 rest
    | '0' :: 'o' :: rest => marked 8 rest
    | '0' :: 'b' :: rest => marked 2 rest
    | cs => do
      let (isNegative, cs) := sign cs
      let (digits, rest) ← decimals? cs
      let n : Int := ofDigits 10 digits
      some (if isNegative then -n else n, rest)
  if fits n then some (n, rest) else none

/-! ### Numbers with a point or an exponent -/

/-- A number `significand * 10 ^ exponent`. -/
structure Decimal where
  /-- The significand. -/
  significand : Nat
  /-- The exponent. -/
  exponent : Int

/-- The least number that rounds up to infinity: half a step above the largest finite one. -/
def Decimal.infinite : Nat := Nat.pow 2 1024 - Nat.pow 2 970

/-- Whether the number is too large for a floating-point number of 64 bits. -/
def Decimal.isHuge (d : Decimal) : Bool :=
  let magnitude : Int := (Nat.toDigits 10 d.significand).length + d.exponent
  if d.significand = 0 || magnitude < 309 then false
  else if 309 < magnitude then true
  else if d.exponent < 0 then
    Decimal.infinite * Nat.pow 10 d.exponent.natAbs ≤ d.significand
  else Decimal.infinite ≤ d.significand * Nat.pow 10 d.exponent.natAbs

/-- The digits behind a point; none without a point. -/
def fraction? : List Char → Option (List Nat × List Char)
  | '.' :: rest => digits? 10 rest
  | rest => some ([], rest)

/-- The exponent behind its letter; zero without one. -/
def exponent? : List Char → Option (Int × List Char)
  | c :: rest =>
    if c = 'e' ∨ c = 'E' then do
      let (isNegative, rest) := sign rest
      let (digits, rest) ← digits? 10 rest
      let n : Int := ofDigits 10 digits
      some (if isNegative then -n else n, rest)
    else some (0, c :: rest)
  | [] => some (0, [])

/-- Reads a number that has a point or an exponent. -/
def real? (cs : List Char) : Option (String × List Char) := do
  let (isNegative, behindSign) := sign cs
  let literal (rest : List Char) := String.ofList (cs.take (cs.length - rest.length))
  match behindSign with
  | 'i' :: 'n' :: 'f' :: rest => some (literal rest, rest)
  | 'n' :: 'a' :: 'n' :: rest => some (literal rest, rest)
  | _ =>
    let (whole, behindWhole) ← decimals? behindSign
    let (point, behindPoint) ← fraction? behindWhole
    let (power, rest) ← exponent? behindPoint
    let value : Decimal := ⟨ofDigits 10 (whole ++ point), power - point.length⟩
    if rest.length = behindWhole.length ∨ (!isNegative && value.isHuge) then none
    else some (literal rest, rest)

end ExecutionNode.Toml
