import ExecutionNode.Log.Level
import ExecutionNode.Log.Pattern
import ExecutionNode.Text.Blank
import ExecutionNode.Text.Letter

/-!
# Directives

A directive says how much is logged of the targets whose names begin with a text, or of all
targets.  It can be confined to what happens inside of a span, and to what has fields of given
names or values.  It is written as `target[span\x7bfield=value\x7d]=level`, where each part may be
missing; without a level, everything is logged.

The parts are found in the text without the blanks around it, but then they are cut out of the text
as it stands, at the places where they were found.  So behind a blank in front each part is taken
from too far left.
-/

namespace ExecutionNode.Log

/-- What a directive asks of a field. -/
structure FieldMatch where
  /-- The name of the field. -/
  name : String
  /-- Whether its value matters. -/
  hasValue : Bool
deriving DecidableEq

/-- What is logged of some targets. -/
structure Directive where
  /-- How the names of the targets begin; none for all. -/
  target : Option String
  /-- The span inside of which it holds. -/
  span : Option String := none
  /-- What it asks of fields. -/
  fields : List FieldMatch := []
  /-- How much is logged. -/
  verbosity : Verbosity
deriving DecidableEq

/-! ### Cutting texts -/

/-- Characters with the number of octets in front of each. -/
abbrev Located := List (Nat × Char)

/-- Counts the octets in front of each character. -/
def located (start : Nat) : List Char → Located
  | [] => []
  | c :: rest => (start, c) :: located (start + c.utf8Size) rest

/-- The text behind so many octets, if they are whole characters. -/
def behind? : Nat → List Char → Option (List Char)
  | 0, cs => some cs
  | _ + 1, [] => none
  | n + 1, c :: rest => if c.utf8Size ≤ n + 1 then behind? (n + 1 - c.utf8Size) rest else none

/-- The text of so many octets, if they are whole characters. -/
def front? : Nat → List Char → Option (List Char)
  | 0, _ => some []
  | _ + 1, [] => none
  | n + 1, c :: rest =>
    if c.utf8Size ≤ n + 1 then (front? (n + 1 - c.utf8Size) rest).map (c :: ·) else none

/-- The part of a text between two places. -/
def between? (text : List Char) (start stop : Nat) : Option (List Char) :=
  behind? start text >>= front? (stop - start)

/-- The text without the blanks around it. -/
def trimmed (text : List Char) : List Char :=
  ((text.dropWhile isBlank).reverse.dropWhile isBlank).reverse

/-! ### Reading -/

/-- Reads what is asked of a field. A second equals sign ends the value. -/
def FieldMatch.ofText? (text : List Char) : Option FieldMatch :=
  let name := String.ofList (text.takeWhile (· ≠ '='))
  match text.dropWhile (· ≠ '=') with
  | [] => some ⟨name, false⟩
  | _ :: value => if Pattern.isValid (value.takeWhile (· ≠ '=')) then some ⟨name, true⟩ else none

namespace Directive

/-- Whether a directive may begin with the character, if it does not begin with a span. -/
def isStart (c : Char) : Bool := isLetterOrDigit c || c = '-' || c = ':' || c = '_'

/-- The directive that a verbosity or a target alone stands for. -/
def ofWord (word : List Char) : Directive :=
  let s := String.ofList word
  match Verbosity.ofText? s with
  | some v => { target := none, verbosity := v }
  | none => { target := some s, verbosity := some .trace }

/-- Reads the verbosity from a place on. A comma behind it ends the directive. -/
def level? (text : List Char) (start : Nat) (rest : Located) : Option Verbosity := do
  let word ←
    match rest.dropWhile (·.2 ≠ ',') with
    | [] => behind? start text
    | [(stop, _)] => between? text start stop
    | _ => none
  if word.isEmpty then some (some .trace) else Verbosity.ofText? (String.ofList word)

/-- Reads what follows the span. -/
def behindSpan? (text : List Char) (d : Directive) : Located → Option Directive
  | [] => some d
  | (i, c) :: rest =>
    if c = '=' then (level? text (i + 1) rest).map fun v => { d with verbosity := v } else none

/-- Reads what is asked of fields from a place on, up to the end of the span. -/
def fields? (text : List Char) (start : Nat) (found : List FieldMatch) :
    Located → Option (List FieldMatch × Located)
  | [] => none
  | (i, c) :: rest =>
    if c = '\x7d' ∨ c = ',' then do
      let word ← between? text start i
      let field ← if word.isEmpty then none else FieldMatch.ofText? word
      if c = ',' then fields? text (i + 1) (field :: found) rest
      else
        match rest with
        | (_, ']') :: rest => some ((field :: found).reverse, rest)
        | _ => none
    else fields? text start found rest

/-- Reads a span from the place behind its bracket on, and what follows it. -/
def span? (text : List Char) (target : Option String) (start : Nat) (rest : Located) :
    Option Directive :=
  match rest.dropWhile fun p => p.2 ≠ ']' ∧ p.2 ≠ '\x7b' with
  | [] => none
  | (i, c) :: rest => do
    let name ← between? text start i
    let span := some (String.ofList name)
    if c = ']' then behindSpan? text { target, span, verbosity := some .trace } rest
    else do
      let (fields, rest) ← fields? text (i + 1) [] rest
      let span := if name.isEmpty then none else span
      behindSpan? text { target, span, fields, verbosity := some .trace } rest

/-- Reads a directive. -/
def ofText? (s : String) : Option Directive :=
  let text := s.toList
  match located 0 (trimmed text) with
  | [] => none
  | (i, c) :: rest =>
    if c = '[' then span? text none (i + 1) rest
    else if !isStart c then none
    else
      match rest.dropWhile fun p => p.2 ≠ '=' ∧ p.2 ≠ '[' ∧ p.2 ≠ ',' with
      | [] => some (ofWord text)
      | (i, c) :: rest =>
        if c = ',' then if rest.isEmpty then some (ofWord text) else none
        else do
          let target := some (String.ofList (← between? text 0 i))
          if c = '[' then span? text target (i + 1) rest
          else (level? text (i + 1) rest).map fun v => { target, verbosity := v }

/-! ### What a directive is about -/

/-- Whether the directive can hold outside of spans. -/
def isStatic (d : Directive) : Bool := d.span.isNone && d.fields.all (!·.hasValue)

/-- Whether the directive is about events of a target with fields of some names. -/
def covers (d : Directive) (target : String) (names : List String) : Bool :=
  d.isStatic
    && d.target.all (fun start => start.toList.isPrefixOf target.toList)
    && d.fields.all fun field => names.contains field.name

/-- How much of a target's name the directive fixes, in octets; more than nothing if it names
any. -/
def weight (d : Directive) : Nat := d.target.elim 0 (·.utf8ByteSize + 1)

/-- The names of the fields that the directive asks for. -/
def fieldNames (d : Directive) : List String := d.fields.map (·.name)

/-- Whether one list of numbers comes before another one in the order of dictionaries, or is the
same. -/
def comesFirst : List Nat → List Nat → Bool
  | [], _ => true
  | _ :: _, [] => false
  | a :: as, b :: bs => if a = b then comesFirst as bs else a < b

/-- Whether names come before others in the order of dictionaries, or are the same. -/
def namesComeFirst : List String → List String → Bool
  | [], _ => true
  | _ :: _, [] => false
  | a :: as, b :: bs =>
    if a = b then namesComeFirst as bs
    else comesFirst (a.toList.map Char.toNat) (b.toList.map Char.toNat)

/-- Whether a directive gives way to another one that is about the same events: to one that names
more of the target, then more fields, then later ones in the order of names. -/
def yields (d other : Directive) : Bool :=
  if d.weight ≠ other.weight then d.weight < other.weight
  else if d.fields.length ≠ other.fields.length then d.fields.length < other.fields.length
  else namesComeFirst d.fieldNames other.fieldNames

end Directive

end ExecutionNode.Log
