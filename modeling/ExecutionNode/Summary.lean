/-!
# Summaries for diagnosis

A part can be written out in one line, so that an operator sees what it holds.  A summary names
its part and the fields with their values; two points at the end say that some fields are left
out.
-/

namespace ExecutionNode.Summary

/-- A part with its fields, of which some may be left out. -/
def record (part : String) (fields : List (String × String)) (more : Bool) : String :=
  let shown := fields.map fun (name, value) => name ++ ": " ++ value
  part ++ " \x7b " ++ ", ".intercalate (shown ++ if more then [".."] else []) ++ " \x7d"

/-- A value that may be missing. -/
def option {α : Type} (f : α → String) : Option α → String
  | none => "None"
  | some a => "Some(" ++ f a ++ ")"

end ExecutionNode.Summary
