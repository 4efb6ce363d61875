import ExecutionNode.Quantity

/-!
# Levels

How important an event is, and up to which level events are logged.
-/

namespace ExecutionNode.Log

/-- How important an event is. -/
inductive Level where
  /-- Something failed. -/
  | error
  /-- Something may be wrong. -/
  | warn
  /-- Progress. -/
  | info
  /-- What the parts do. -/
  | debug
  /-- Every step. -/
  | trace
deriving DecidableEq

/-- The name of a level. -/
def Level.name : Level → String
  | error => "ERROR"
  | warn => "WARN"
  | info => "INFO"
  | debug => "DEBUG"
  | trace => "TRACE"

/-- How much a log holds with events up to a level. -/
def Level.rank : Level → Nat
  | error => 1
  | warn => 2
  | info => 3
  | debug => 4
  | trace => 5

/-- The least important level that is logged; none if nothing is. -/
abbrev Verbosity := Option Level

namespace Verbosity

/-- How much is logged. -/
def rank (v : Verbosity) : Nat := v.elim 0 Level.rank

/-- The name of a verbosity. -/
def name (v : Verbosity) : String := v.elim "OFF" Level.name

/-- All verbosities. -/
def all : List Verbosity :=
  [none, some .error, some .warn, some .info, some .debug, some .trace]

/-- Reads a name, in any case, or a rank. -/
def ofText? (s : String) : Option Verbosity :=
  match Quantity.unsigned 10 s.toList with
  | .ok n => all.find? (rank · = n)
  | .error _ => all.find? (name · = s.map Char.toUpper)

/-- Whether events of a level are logged. -/
def allows (v : Verbosity) (level : Level) : Bool := level.rank ≤ v.rank

end Verbosity

end ExecutionNode.Log
