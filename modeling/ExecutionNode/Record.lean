/-!
# Records

What a reader of some format finds where it expects a record: for each field a value, or one of
the two ways in which it can be missing.  Which of them a field tolerates is up to the field.
-/

namespace ExecutionNode

/-- What a record holds for one field. -/
inductive Slot (V : Type) where
  /-- The value of the field. -/
  | given (value : V)
  /-- A record by names that does not name the field. -/
  | unnamed
  /-- A record by positions that ends before the field. -/
  | cutOff

/-- The fields of a record, by name. -/
structure Record (V : Type) where
  /-- What stands for a field. -/
  slot : String → Slot V

namespace Record

variable {V α : Type}

/-- The record with the values of a list, of which the first belongs to the first name. -/
def ofPositions (names : List String) (values : List V) : Record V :=
  ⟨fun name =>
    match values[names.idxOf name]? with
    | some value => .given value
    | none => .cutOff⟩

/-- The record with the values under their names. -/
def ofFields (fields : List (String × V)) : Record V :=
  ⟨fun name =>
    match fields.find? (·.1 = name) with
    | some (_, value) => .given value
    | none => .unnamed⟩

/-- A field that must be there. -/
def required (r : Record V) (name : String) (read? : V → Option α) : Option α :=
  match r.slot name with
  | .given value => read? value
  | _ => none

/-- A field that has a value of its own when it is not there. -/
def orElse (r : Record V) (name : String) (read? : V → Option α) (absent : α) : Option α :=
  match r.slot name with
  | .given value => read? value
  | _ => some absent

end Record

end ExecutionNode
