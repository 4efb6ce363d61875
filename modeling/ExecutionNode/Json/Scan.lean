import ExecutionNode.Bytes.Hex
import ExecutionNode.Json.Magnitude

/-!
# Strings, numbers and words of a JSON text

A scan reads one part from the front of a text.  Where it fails it tells what stands behind the
last octet that it looked at, because a reader may go on from there.  A character that a scan
has looked at only in part stays in the text that it leaves.
-/

namespace ExecutionNode.Json

/-- What a scan finds with the text behind it, or the text that it leaves when it fails. -/
abbrev Scan (α : Type) := Except (List Char) (α × List Char)

/-- Drops blanks: space, tab, line feed and carriage return. -/
def skipBlanks : List Char → List Char
  | c :: rest =>
    if c = ' ' ∨ c = '\t' ∨ c = '\n' ∨ c = '\r' then skipBlanks rest else c :: rest
  | [] => []

/-- Drops the characters that lie completely in so many octets. -/
def dropOctets : Nat → List Char → List Char
  | _, [] => []
  | n, c :: rest => if c.utf8Size ≤ n then dropOctets (n - c.utf8Size) rest else c :: rest

/-! ### Words -/

/-- Reads the characters of a word, of which each differing one is looked at. -/
def scanWord : List Char → List Char → Scan Unit
  | [], cs => .ok ((), cs)
  | w :: word, cs =>
    match cs with
    | c :: rest => if c = w then scanWord word rest else .error (dropOctets 1 cs)
    | [] => .error []

/-! ### Strings -/

/-- The number that four hexadecimal digits write. -/
def fourDigits (a b c d : Char) : Option Nat := do
  let a ← Hex.digitValue? 16 a
  let b ← Hex.digitValue? 16 b
  let c ← Hex.digitValue? 16 c
  let d ← Hex.digitValue? 16 d
  some (((a * 16 + b) * 16 + c) * 16 + d)

/-- Whether a number is the first half of a surrogate pair. -/
def isHighHalf (n : Nat) : Bool := 0xd800 ≤ n && n < 0xdc00

/-- Whether a number is the second half of a surrogate pair. -/
def isLowHalf (n : Nat) : Bool := 0xdc00 ≤ n && n < 0xe000

/-- The character that a pair of surrogates stands for. -/
def surrogatePair (high low : Nat) : Char :=
  Char.ofNat (0x10000 + (high - 0xd800) * 0x400 + (low - 0xdc00))

/-- The character behind a backslash, for the escapes of one letter. -/
def simpleEscape? (c : Char) : Option Char :=
  if c = '"' then some '"'
  else if c = '\\' then some '\\'
  else if c = '/' then some '/'
  else if c = 'b' then some '\x08'
  else if c = 'f' then some '\x0c'
  else if c = 'n' then some '\n'
  else if c = 'r' then some '\r'
  else if c = 't' then some '\t'
  else none

/-- Reads a string behind its opening quote, with the characters read so far in reverse. A half of a
surrogate pair must stand beside the other half. -/
def stringFrom (read : List Char) : List Char → Scan String
  | [] => .error []
  | '"' :: rest => .ok (String.ofList read.reverse, rest)
  | '\\' :: 'u' :: a :: b :: c :: d :: rest =>
    match fourDigits a b c d with
    | none => .error (dropOctets 4 (a :: b :: c :: d :: rest))
    | some n =>
      if isHighHalf n then
        match rest with
        | '\\' :: 'u' :: e :: f :: g :: h :: rest =>
          match fourDigits e f g h with
          | none => .error (dropOctets 4 (e :: f :: g :: h :: rest))
          | some m =>
            if isLowHalf m then stringFrom (surrogatePair n m :: read) rest else .error rest
        | '\\' :: 'u' :: rest => .error (dropOctets 4 rest)
        | '\\' :: rest => .error (dropOctets 1 rest)
        | rest => .error (dropOctets 1 rest)
      else if isLowHalf n then .error rest
      else stringFrom (Char.ofNat n :: read) rest
  | '\\' :: 'u' :: rest => .error (dropOctets 4 rest)
  | '\\' :: c :: rest =>
    match simpleEscape? c with
    | none => .error (dropOctets 1 (c :: rest))
    | some x => stringFrom (x :: read) rest
  | c :: rest => if c.toNat < 0x20 then .error rest else stringFrom (c :: read) rest

/-- Passes over a string behind its opening quote. Its escapes must be escapes, but halves of
surrogate pairs may stand alone. -/
def skipString : List Char → Option (List Char)
  | [] => none
  | '"' :: rest => some rest
  | '\\' :: 'u' :: a :: b :: c :: d :: rest =>
    if (fourDigits a b c d).isSome then skipString rest else none
  | '\\' :: c :: rest => if (simpleEscape? c).isSome then skipString rest else none
  | c :: rest => if c.toNat < 0x20 then none else skipString rest

/-! ### Numbers -/

/-- Whether a character is a decimal digit. -/
def isDigit (c : Char) : Bool := '0' ≤ c && c ≤ '9'

/-- The value of decimal digits. -/
def natOfDigits (digits : List Char) : Nat :=
  digits.foldl (fun n c => n * 10 + Magnitude.digitOf c) 0

/-- The parts of a number. -/
structure NumberText where
  /-- Whether a minus sign stands in front. -/
  isNegative : Bool
  /-- The digits before the point. -/
  whole : List Char
  /-- The digits behind the point, if there is one. -/
  fraction : Option (List Char)
  /-- The mark of the exponent with its sign and its digits, if there is one. -/
  power : Option (List Char × List Char)

namespace NumberText

/-- Reads an exponent. Behind the mark and a sign there must be a digit. -/
def scanPower (t : NumberText) (cs : List Char) : Scan NumberText :=
  match cs with
  | e :: rest =>
    if e = 'e' ∨ e = 'E' then
      let (sign, rest) :=
        match rest with
        | '+' :: rest => (['+'], rest)
        | '-' :: rest => (['-'], rest)
        | rest => ([], rest)
      let digits := rest.takeWhile isDigit
      if digits.isEmpty then .error (dropOctets 1 rest)
      else .ok ({ t with power := some (e :: sign, digits) }, rest.dropWhile isDigit)
    else .ok (t, cs)
  | [] => .ok (t, [])

/-- Reads what stands behind the digits before the point. -/
def scanRest (t : NumberText) : List Char → Scan NumberText
  | '.' :: rest =>
    let digits := rest.takeWhile isDigit
    if digits.isEmpty then .error rest
    else scanPower { t with fraction := some digits } (rest.dropWhile isDigit)
  | rest => scanPower t rest

/-- Reads a number behind its sign. A zero in front stands alone. -/
def scanUnsigned (isNegative : Bool) (cs : List Char) : Scan NumberText :=
  match cs with
  | '0' :: rest =>
    if rest.head?.any isDigit then .error rest else scanRest ⟨isNegative, ['0'], none, none⟩ rest
  | cs =>
    let digits := cs.takeWhile isDigit
    if digits.isEmpty then .error (dropOctets 1 cs)
    else scanRest ⟨isNegative, digits, none, none⟩ (cs.dropWhile isDigit)

/-- Reads a number that starts with a digit or a minus sign. -/
def scan : List Char → Scan NumberText
  | '-' :: rest => scanUnsigned true rest
  | cs => scanUnsigned false cs

/-- The largest exponent that is counted. -/
def largestExponent : Nat := 2147483647

/-- The digits of the exponent behind the one that makes it too large to be counted. -/
def uncounted (value : Nat) : List Char → Option (List Char)
  | [] => none
  | c :: rest =>
    let grown := value * 10 + Magnitude.digitOf c
    if largestExponent < grown then some rest else uncounted grown rest

/-- The size of the number without its exponent. -/
def mantissa (t : NumberText) : Magnitude :=
  (Magnitude.ofWhole t.whole).withFraction (t.fraction.getD [])

/-- The size of the number. -/
def magnitude (t : NumberText) : Magnitude :=
  let m := t.mantissa
  match t.power with
  | none => m
  | some (mark, digits) =>
    let n := natOfDigits digits
    { m with exponent := if '-' ∈ mark then m.exponent - n else m.exponent + n }

/-- The digits of an exponent that are not read because those before them make it too large. An
exponent of zero or towards zero is read completely. -/
def unread? (t : NumberText) : Option (List Char) :=
  match t.power with
  | none => none
  | some (mark, digits) =>
    if '-' ∈ mark ∨ t.mantissa.significand = 0 then none else uncounted 0 digits

/-- The number. -/
def number (t : NumberText) : Number :=
  let n := natOfDigits t.whole
  match t.fraction, t.power with
  | none, none => if t.isNegative then .negative n else .natural n
  | fraction, power =>
    let sign := if t.isNegative then ['-'] else []
    let point := fraction.elim [] ('.' :: ·)
    .real (String.ofList (sign ++ t.whole ++ point ++ power.elim [] fun p => p.1 ++ p.2))

end NumberText

/-- Reads a number that is not too large. -/
def scanNumber (cs : List Char) : Scan Number :=
  match NumberText.scan cs with
  | .error rest => .error rest
  | .ok (t, rest) =>
    match t.number, t.unread? with
    | .real text, none => if t.magnitude.isFinite then .ok (.real text, rest) else .error rest
    | .real _, some digits => .error (digits ++ rest)
    | whole, _ =>
      if natOfDigits t.whole < UInt64.size ∨ t.magnitude.isFinite then .ok (whole, rest)
      else .error rest

/-- Passes over a number of any size. -/
def skipNumber (cs : List Char) : Option (List Char) :=
  match NumberText.scan cs with
  | .error _ => none
  | .ok (_, rest) => some rest

end ExecutionNode.Json
