import ExecutionNode.Bytes.Hex
import ExecutionNode.Text.Letter

/-!
# Patterns for the values of fields

A directive can ask for a value of a field, by a number or by a regular expression.  Only events
inside of spans are held against such values, so nothing here matches a pattern: this module
says which texts are patterns.  Classes of letters, digits and blanks by one escape need tables
that a filter does without; they are refused, and so are the edges of words.
-/

namespace ExecutionNode.Log.Pattern

/-! ### Numbers -/

/-- Whether the characters are decimal digits. -/
def areDigits (cs : List Char) : Bool := cs.all Char.isDigit

/-- Whether the characters are the digits of an exponent behind its sign. -/
def isPower : List Char → Bool
  | '+' :: rest => !rest.isEmpty && areDigits rest
  | '-' :: rest => !rest.isEmpty && areDigits rest
  | cs => !cs.isEmpty && areDigits cs

/-- Whether the characters are a decimal number without a sign. -/
def isDecimal (cs : List Char) : Bool :=
  let whole := cs.takeWhile Char.isDigit
  let rest := cs.dropWhile Char.isDigit
  let fraction :=
    match rest with
    | '.' :: rest => rest.takeWhile Char.isDigit
    | _ => []
  let rest :=
    match rest with
    | '.' :: rest => rest.dropWhile Char.isDigit
    | rest => rest
  !(whole.isEmpty && fraction.isEmpty) &&
    match rest with
    | [] => true
    | c :: power => (c = 'e' || c = 'E') && isPower power

/-- Whether the text is a number behind a plus sign. The other numbers are regular expressions. -/
def isPositive : List Char → Bool
  | '+' :: rest =>
    isDecimal rest || ["inf", "infinity", "nan"].contains (String.ofList (rest.map Char.toLower))
  | _ => false

/-! ### Escapes -/

/-- The character with a number in so many hexadecimal digits. -/
def coded? (length : Nat) (cs : List Char) : Option (Char × List Char) := do
  let digits ← (cs.take length).mapM (Hex.digitValue? 16)
  let code := digits.foldl (fun n d => n * 16 + d) 0
  if digits.length = length ∧ code.isValidChar then some (Char.ofNat code, cs.drop length)
  else none

/-- The control characters that have a letter. -/
def controls : List (Char × Char) :=
  [('a', '\x07'), ('f', '\x0c'), ('t', '\t'), ('n', '\n'), ('r', '\r'), ('v', '\x0b')]

/-- Reads an escape behind its backslash. It stands for a character or, if none, for an end of the
text. -/
def escape? : List Char → Option (Option Char × List Char)
  | [] => none
  | c :: rest =>
    if c = 'x' then (coded? 2 rest).map fun (x, rest) => (some x, rest)
    else if c = 'u' then (coded? 4 rest).map fun (x, rest) => (some x, rest)
    else if c = 'U' then (coded? 8 rest).map fun (x, rest) => (some x, rest)
    else if c = 'A' ∨ c = 'z' then some (none, rest)
    else
      match controls.find? (·.1 = c) with
      | some (_, x) => some (some x, rest)
      | none =>
        if c.isAlphanum ∨ c = '<' ∨ c = '>' ∨ 0x80 ≤ c.toNat then none else some (some c, rest)

/-! ### Classes in brackets -/

/-- The classes that have a name inside of brackets. -/
def classNames : List String :=
  ["alnum", "alpha", "ascii", "blank", "cntrl", "digit", "graph", "lower", "print", "punct",
   "space", "upper", "word", "xdigit"]

/-- The text behind a named class, from the colon behind its bracket on. -/
def namedClass? (cs : List Char) : Option (List Char) :=
  match cs with
  | ':' :: rest =>
    let rest := if rest.head? = some '^' then rest.tail else rest
    match rest.dropWhile (· ≠ ':') with
    | ':' :: ']' :: behind =>
      if classNames.contains (String.ofList (rest.takeWhile (· ≠ ':'))) then some behind else none
    | _ => none
  | _ => none

/-- Reads a character of a class. -/
def classCharacter? : List Char → Option (Char × List Char)
  | [] => none
  | '\\' :: rest =>
    match escape? rest with
    | some (some c, rest) => some (c, rest)
    | _ => none
  | c :: rest => some (c, rest)

/-- The text behind what may stand in front of the members of a class: a negation, minus signs, and
a closing bracket as the first member. -/
def classFront (cs : List Char) : List Char :=
  let cs := if cs.head? = some '^' then cs.tail else cs
  match cs with
  | '-' :: rest => rest.dropWhile (· = '-')
  | ']' :: rest => rest
  | cs => cs

/-- Reads the members of a class that is nested so deep, and its end. -/
def classEnd? : (bound depth : Nat) → List Char → Option (List Char)
  | 0, _, _ => none
  | bound + 1, depth, cs =>
    match cs with
    | [] => none
    | ']' :: rest => if depth = 0 then some rest else classEnd? bound (depth - 1) rest
    | '[' :: rest =>
      match namedClass? rest with
      | some rest => classEnd? bound depth rest
      | none => classEnd? bound (depth + 1) (classFront rest)
    | '&' :: '&' :: rest => classEnd? bound depth rest
    | '-' :: '-' :: rest => classEnd? bound depth rest
    | '~' :: '~' :: rest => classEnd? bound depth rest
    | cs =>
      match classCharacter? cs with
      | none => none
      | some (first, rest) =>
        match rest with
        | '-' :: ']' :: _ => classEnd? bound depth rest
        | '-' :: '-' :: _ => classEnd? bound depth rest
        | '-' :: rest =>
          match classCharacter? rest with
          | none => none
          | some (last, rest) => if first ≤ last then classEnd? bound depth rest else none
        | rest => classEnd? bound depth rest

/-! ### Groups -/

/-- The text behind the flags of a group with the sign that ends them. Each flag stands once. -/
def flags? (seen : List Char) : List Char → Option (Char × List Char)
  | [] => none
  | c :: rest =>
    if c = ':' ∨ c = ')' then if seen.head? = some '-' then none else some (c, rest)
    else if "imsURux-".toList.contains c ∧ !seen.contains c then flags? (c :: seen) rest
    else none

/-- Whether the characters are the name of a group. -/
def isGroupName : List Char → Bool
  | [] => false
  | c :: rest =>
    (c = '_' || (isLetterOrDigit c && !c.isDigit)) &&
      rest.all fun c => c = '_' || c = '.' || c = '[' || c = ']' || isLetterOrDigit c

/-- What the opening of a group leads to. -/
inductive Opening where
  /-- A group. -/
  | group (rest : List Char)
  /-- Flags for the rest of the group around. -/
  | flags (rest : List Char)

/-- Reads the name of a group. -/
def groupName? (cs : List Char) : Option Opening :=
  match cs.dropWhile (· ≠ '>') with
  | _ :: rest => if isGroupName (cs.takeWhile (· ≠ '>')) then some (.group rest) else none
  | [] => none

/-- Reads the opening of a group behind its bracket. -/
def opening? : List Char → Option Opening
  | '?' :: 'P' :: '<' :: rest => groupName? rest
  | '?' :: '<' :: rest => groupName? rest
  | '?' :: rest =>
    match flags? [] rest with
    | some (')', behind) => if rest.head? = some ')' then none else some (.flags behind)
    | some (_, behind) => some (.group behind)
    | none => none
  | rest => some (.group rest)

/-! ### Regular expressions -/

/-- Whether the text is a regular expression inside of so many groups. `repeatable` tells whether
something that can be repeated stands in front. -/
def isRegular : (bound depth : Nat) → (repeatable : Bool) → List Char → Bool
  | 0, _, _, _ => false
  | bound + 1, depth, repeatable, cs =>
    match cs with
    | [] => depth == 0
    | '(' :: rest =>
      match opening? rest with
      | none => false
      | some (.group rest) => isRegular bound (depth + 1) false rest
      | some (.flags rest) => isRegular bound depth false rest
    | ')' :: rest => depth != 0 && isRegular bound (depth - 1) true rest
    | '|' :: rest => isRegular bound depth false rest
    | '[' :: rest =>
      match classEnd? (rest.length + 1) 0 (classFront rest) with
      | none => false
      | some rest => isRegular bound depth true rest
    | '\\' :: rest =>
      match escape? rest with
      | none => false
      | some (_, rest) => isRegular bound depth true rest
    | '\x7b' :: _ => false
    | c :: rest =>
      if c = '*' ∨ c = '+' ∨ c = '?' then
        repeatable &&
          isRegular bound depth true (if rest.head? = some '?' then rest.tail else rest)
      else isRegular bound depth true rest

/-- Whether the text can stand for the value of a field. -/
def isValid (cs : List Char) : Bool :=
  isPositive cs || isRegular (cs.length + 1) 0 false cs

end ExecutionNode.Log.Pattern
