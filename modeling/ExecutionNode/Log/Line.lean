import ExecutionNode.Json.Printer
import ExecutionNode.Log.Filter

/-!
# Log lines

An event is written as a line for a terminal or as a JSON object.  Its target is written only if
the filter asks for more than progress of any target, because then the lines are many.
-/

namespace ExecutionNode.Log

/-! ### Events -/

/-- The value of a field. -/
inductive FieldValue where
  /-- A number. -/
  | number (n : Nat)
  /-- A truth value. -/
  | flag (b : Bool)
  /-- A text, in quotes. -/
  | quoted (s : String)
  /-- Something by the text that it is shown as. -/
  | shown (s : String)

/-- Something that happened. -/
structure Event where
  /-- When, as it is written. -/
  time : String
  /-- In which part of the node. -/
  target : String
  /-- How important it is. -/
  level : Level
  /-- What happened. -/
  message : String
  /-- Details, by name. -/
  fields : List (String × FieldValue)

/-! ### Forms of a line -/

/-- The form of a line. -/
inductive Format where
  /-- A JSON object. -/
  | json
  /-- A line to be read. -/
  | terminal
deriving DecidableEq

namespace Format

/-- The name of a form. -/
def name : Format → String
  | json => "json"
  | terminal => "terminal"

/-- All forms. -/
def all : List Format := [json, terminal]

/-- Reads the name of a form in any case. Another text is an error, which shows it in lower case. -/
def ofText (s : String) : Except String Format :=
  let lower := s.map Char.toLower
  match all.find? (·.name = lower) with
  | some format => .ok format
  | none => .error ("unknown log format: " ++ lower)

end Format

/-- How lines look. -/
structure Style where
  /-- Their form. -/
  format : Format
  /-- Whether a terminal shows colours. -/
  hasColors : Bool
  /-- Whether targets are shown. -/
  showsTargets : Bool

/-- Whether a choice of colours asks for them; without a choice there are none. -/
def wantsColors (choice : Option String) : Bool := choice.any (· != "never")

/-- The look of lines that pass a filter. -/
def Style.ofFilter (format : Format) (filter : Filter) (colors : Option String) : Style :=
  { format
    hasColors := wantsColors colors
    showsTargets := Level.info.rank < filter.rank }

/-! ### Writing -/

/-- The colour of a level. -/
def Level.color : Level → String
  | error => "31"
  | warn => "33"
  | info => "32"
  | debug => "34"
  | trace => "35"

/-- A text in another look, if looks are wanted. -/
def styled (wanted : Bool) (look text : String) : String :=
  if wanted then "\x1b[" ++ look ++ "m" ++ text ++ "\x1b[0m" else text

/-- A field's value for a terminal. -/
def FieldValue.text : FieldValue → String
  | number n => toString n
  | flag b => toString b
  | quoted s => String.ofList (Json.quoted s)
  | shown s => s

/-- A field's value in JSON. -/
def FieldValue.json : FieldValue → Json
  | number n => .ofNat n
  | flag b => .bool b
  | quoted s => .str s
  | shown s => .str s

namespace Event

/-- The names of the fields, of which the message is one. -/
def fieldNames (e : Event) : List String := "message" :: e.fields.map (·.1)

/-- The line for a terminal. -/
def terminalLine (e : Event) (hasColors showsTarget : Bool) : String :=
  let dim := styled hasColors "2"
  let padding := String.ofList (List.replicate (5 - e.level.name.length) ' ')
  let target := if showsTarget then dim e.target ++ dim ":" ++ " " else ""
  let fields := e.fields.map fun (name, value) =>
    " " ++ styled hasColors "3" name ++ dim "=" ++ value.text
  dim e.time ++ " " ++ styled hasColors e.level.color (padding ++ e.level.name) ++ " " ++ target
    ++ e.message ++ String.join fields

/-- The JSON object. -/
def json (e : Event) (showsTarget : Bool) : Json :=
  let fields := ("message", .str e.message) :: e.fields.map fun (name, value) => (name, value.json)
  .obj ([("timestamp", .str e.time), ("level", .str e.level.name), ("fields", .obj fields)]
    ++ if showsTarget then [("target", .str e.target)] else [])

/-- The line of an event. -/
def line (e : Event) (style : Style) : String :=
  match style.format with
  | .json => (e.json style.showsTargets).render
  | .terminal => e.terminalLine style.hasColors style.showsTargets

end Event

/-- The lines of the events that pass a filter. -/
def lines (format : Format) (filter : Filter) (colors : Option String) (events : List Event) :
    List String :=
  (events.filter fun e => filter.allows e.target e.fieldNames e.level).map
    (·.line (.ofFilter format filter colors))

end ExecutionNode.Log
