import ExecutionNode.Toml.Moment
import ExecutionNode.Toml.Number
import ExecutionNode.Toml.Text

/-!
# Reading TOML values and keys

Arrays may be spread over lines with comments in between and end in a comma; tables in braces stand
on one line.  Nesting and the length of keys are limited.  The explicit bound of the readers is the
number of characters: each step uses up one.
-/

namespace ExecutionNode.Toml

/-! ### Keys -/

/-- Whether the character may stand in a name without quotes. -/
def isBare (c : Char) : Bool := c.isAlphanum || c = '-' || c = '_'

/-- Reads one name. -/
def name? (cs : List Char) : Option (String × List Char) :=
  match cs with
  | [] => none
  | c :: _ =>
    if c = '"' ∨ c = '\'' then (line? cs).map fun (name, rest) => (String.ofList name, rest)
    else if isBare c then some (String.ofList (cs.takeWhile isBare), cs.dropWhile isBare)
    else none

/-- Reads names with points between them; blanks may stand around each. -/
def names? : (bound : Nat) → List Char → Option (List String × List Char)
  | 0, _ => none
  | bound + 1, cs => do
    let (name, rest) ← name? (skipSpaces cs)
    match skipSpaces rest with
    | '.' :: rest => do
      let (names, rest) ← names? bound rest
      some (name :: names, rest)
    | rest => some ([name], rest)

/-- How deep values may be nested and keys may reach. -/
def depthLimit : Nat := 80

/-- Reads a key. -/
def key? (cs : List Char) : Option (Key × List Char) := do
  let (names, rest) ← names? (cs.length + 1) cs
  let name ← names.getLast?
  if names.length < depthLimit then some (⟨names.dropLast, name⟩, rest) else none

/-! ### Values without parts -/

/-- Reads a truth value. -/
def flag? : List Char → Option (Bool × List Char)
  | 't' :: 'r' :: 'u' :: 'e' :: rest => some (true, rest)
  | 'f' :: 'a' :: 'l' :: 's' :: 'e' :: rest => some (false, rest)
  | _ => none

/-- Reads a value that begins with a digit, a sign or a letter. -/
def word? (cs : List Char) : Option (Toml × List Char) :=
  match moment? cs, real? cs, integer? cs, flag? cs with
  | some (literal, rest), _, _, _ => some (.moment literal, rest)
  | none, some (literal, rest), _, _ => some (.real literal, rest)
  | none, none, some (n, rest), _ => some (.integer n, rest)
  | none, none, none, some (b, rest) => some (.flag b, rest)
  | none, none, none, none => none

/-- Reads a value that has no parts. -/
def scalar? (cs : List Char) : Option (Toml × List Char) :=
  match cs with
  | [] => none
  | c :: _ =>
    if c = '"' ∨ c = '\'' then (text? cs).map fun (s, rest) => (.text (String.ofList s), rest)
    else word? cs

/-! ### Values -/

/-- Drops blanks, ends of lines and comments. -/
def skipFiller : (inComment : Bool) → List Char → List Char
  | _, [] => []
  | _, '\n' :: rest => skipFiller false rest
  | _, '\r' :: '\n' :: rest => skipFiller false rest
  | true, c :: rest => if isPlain c then skipFiller true rest else c :: rest
  | false, c :: rest =>
    if c = '#' then skipFiller true rest
    else if isSpace c then skipFiller false rest
    else c :: rest

mutual

/-- Reads a value inside of which so many levels are left. -/
def value? : (bound levels : Nat) → List Char → Option (Toml × List Char)
  | 0, _, _ => none
  | bound + 1, levels, cs =>
    match levels, cs with
    | levels + 1, '[' :: rest => do
      let (items, rest) ← items? bound levels rest
      some (.list items, rest)
    | levels + 1, '\x7b' :: rest => do
      let (assignments, rest) ←
        match skipSpaces rest with
        | '\x7d' :: rest => some ([], rest)
        | rest => assignments? bound levels rest
      some (← inBraces? assignments, rest)
    | _, cs => scalar? cs

/-- Reads the items of an array up to its closing bracket. -/
def items? : (bound levels : Nat) → List Char → Option (List Toml × List Char)
  | 0, _, _ => none
  | bound + 1, levels, cs =>
    match skipFiller false cs with
    | ']' :: rest => some ([], rest)
    | cs => do
      let (item, rest) ← value? bound levels cs
      match skipFiller false rest with
      | ',' :: rest => do
        let (items, rest) ← items? bound levels rest
        some (item :: items, rest)
      | ']' :: rest => some ([item], rest)
      | _ => none

/-- Reads the keys with their values in braces up to the closing brace. -/
def assignments? : (bound levels : Nat) → List Char → Option (List (Key × Toml) × List Char)
  | 0, _, _ => none
  | bound + 1, levels, cs => do
    let (key, rest) ← key? cs
    let rest ← mark? '=' rest
    let (value, rest) ← value? bound levels (skipSpaces rest)
    match skipSpaces rest with
    | ',' :: rest => do
      let (assignments, rest) ← assignments? bound levels rest
      some ((key, value) :: assignments, rest)
    | '\x7d' :: rest => some ([(key, value)], rest)
    | _ => none

end

/-- Reads a value from the front. -/
def readValue? (cs : List Char) : Option (Toml × List Char) :=
  value? (2 * cs.length + 1) (depthLimit - 1) cs

end ExecutionNode.Toml
