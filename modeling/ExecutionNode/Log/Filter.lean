import ExecutionNode.Log.Directive

/-!
# Log filters

A filter is a list of directives.  Of those that are about an event the most specific one counts,
and of two that are about the same the later one.  Events here happen outside of all spans, so
directives that ask for a span or for the value of a field never let one through.
-/

namespace ExecutionNode.Log

/-- Directives, a later one for the same targets in the place of an earlier one. -/
structure Filter where
  /-- The directives in the order in which they were given. -/
  directives : List Directive

namespace Filter

/-- Reads directives with commas between them; empty places are passed over. -/
def ofText? (s : String) : Option Filter :=
  let parts := (s.toList.splitOn ',').filter (!·.isEmpty)
  (parts.mapM fun part => Directive.ofText? (String.ofList part)).map (⟨·⟩)

/-- The directive that counts for events of a target with fields of some names. -/
def directive? (f : Filter) (target : String) (names : List String) : Option Directive :=
  (f.directives.filter (·.covers target names)).foldl
    (fun best d =>
      match best with
      | some b => if b.yields d then some d else some b
      | none => some d)
    none

/-- Whether an event of a target with fields of some names is logged. -/
def allows (f : Filter) (target : String) (names : List String) (level : Level) : Bool :=
  (f.directive? target names).any (·.verbosity.allows level)

/-- The highest rank that the filter may let through inside of some span: any at all if it asks for
values, as they are not known before. -/
def rank (f : Filter) : Nat :=
  if f.directives.any (·.fields.any (·.hasValue)) then Level.trace.rank
  else (f.directives.map (·.verbosity.rank)).foldl max 0

end Filter

end ExecutionNode.Log
