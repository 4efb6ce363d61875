import ExecutionNode.Json

/-!
# Changing JSON values

A record can be given by its differences from another one, and texts in a value can stand for
other values.
-/

namespace ExecutionNode.Json

/-- Puts a value under a name: in place of the one that stands there, else at the end. -/
def putField (fields : List (String × Json)) (name : String) (value : Json) :
    List (String × Json) :=
  if fields.any (·.1 = name) then fields.map fun f => if f.1 = name then (name, value) else f
  else fields ++ [(name, value)]

/-- The fields of a record with those of a value put over them. -/
def overlay (fields : List (String × Json)) : Json → List (String × Json)
  | .obj changes => changes.foldl (fun fields (name, value) => putField fields name value) fields
  | _ => fields

mutual

/-- Replaces the texts that stand for other values. -/
def substitute (meaning : String → Option Json) : Json → Json
  | .str s => (meaning s).getD (.str s)
  | .arr items => .arr (substituteItems meaning items)
  | .obj fields => .obj (substituteFields meaning fields)
  | other => other

/-- Replaces the texts in the items of an array. -/
def substituteItems (meaning : String → Option Json) : List Json → List Json
  | [] => []
  | j :: rest => substitute meaning j :: substituteItems meaning rest

/-- Replaces the texts in the fields of an object. -/
def substituteFields (meaning : String → Option Json) :
    List (String × Json) → List (String × Json)
  | [] => []
  | (name, j) :: rest => (name, substitute meaning j) :: substituteFields meaning rest

end

end ExecutionNode.Json
