import ExecutionNode.Json

/-!
# What a text is read for

A text is not read the same way everywhere.  A part that nobody asks for is only passed over: it
must be JSON, but its strings need not be text, its numbers may have any size and its brackets
any depth.  A shape tells a reader which parts are asked for and what they are taken for.
-/

namespace ExecutionNode.Json

/-- What a part of a text is read for. -/
inductive Shape where
  /-- A value of any kind. -/
  | whole
  /-- Nothing; it is passed over and stands as null. -/
  | skipped
  /-- Its text, which stands as a string; null stands for itself. -/
  | verbatim
  /-- A byte string of one length. -/
  | octets (length : Nat)
  /-- An array of parts of one shape. -/
  | list (item : Shape)
  /-- A record of fields, in their declared order. Other fields have a shape of their own. -/
  | record (fields : List (String × Shape)) (others : Shape)

namespace Shape

/-- A record of which only the declared fields are asked for. -/
def fields (known : List (String × Shape)) : Shape := record known skipped

/-- The declared names of a record. -/
def names : Shape → List String
  | record known _ => known.map (·.1)
  | _ => []

/-- Whether a part is only passed over. -/
def isSkipped : Shape → Bool
  | skipped => true
  | verbatim => true
  | _ => false

/-- The shape of an item of an array, by its position. -/
def item (s : Shape) (position : Nat) : Shape :=
  match s with
  | list item => item
  | record known _ => known[position]?.elim whole (·.2)
  | skipped => skipped
  | verbatim => skipped
  | _ => whole

/-- The shape of a field of an object. -/
def field (s : Shape) (name : String) : Shape :=
  match s with
  | record known others => ((known.find? (·.1 = name)).map (·.2)).getD others
  | skipped => skipped
  | verbatim => skipped
  | _ => whole

end Shape

end ExecutionNode.Json
