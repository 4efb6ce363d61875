/-!
# TOML values

A document is a tree of tables.  A table remembers how it came about, because that decides what
may still be added to it: `Toml.update?` walks to a table along the path of a header or of a
dotted key, puts in the tables that are missing, and refuses to walk through one that is already
complete.
-/

namespace ExecutionNode

/-- How a table came about. -/
inductive Toml.Origin where
  /-- By a header of its own. -/
  | header
  /-- On the way of a longer header. -/
  | implied
  /-- On the way of a dotted key. -/
  | dotted
  /-- In braces. -/
  | braces
deriving DecidableEq

/-- A TOML value. -/
inductive Toml where
  /-- A text. -/
  | text (s : String)
  /-- A whole number. -/
  | integer (n : Int)
  /-- A number with a point or an exponent, or one that is none, as it is written. -/
  | real (literal : String)
  /-- A truth value. -/
  | flag (b : Bool)
  /-- A date, a time of day or both, as it is written. -/
  | moment (literal : String)
  /-- An array in brackets. -/
  | list (items : List Toml)
  /-- The tables that stand, one after the other, under the same header. -/
  | series (items : List Toml)
  /-- A table. -/
  | table (origin : Toml.Origin) (fields : List (String × Toml))

namespace Toml

/-- Names with values. -/
abbrev Fields := List (String × Toml)

/-- The value of a name. -/
def lookup? (name : String) (fields : Fields) : Option Toml :=
  (fields.find? (·.1 = name)).map (·.2)

/-- The fields with another value under a name. -/
def replace (name : String) (value : Toml) (fields : Fields) : Fields :=
  fields.map fun field => if field.1 = name then (name, value) else field

/-- The fields with a new name at the end. A name that is taken is refused. -/
def insertNew? (name : String) (value : Toml) (fields : Fields) : Option Fields :=
  match lookup? name fields with
  | none => some (fields ++ [(name, value)])
  | some _ => none

/-! ### Walking to a table -/

/-- What a path belongs to. -/
inductive Walk where
  /-- The header of a table. -/
  | ofHeader
  /-- The key of a value. -/
  | ofKey
deriving DecidableEq

/-- How a table comes about that is missing on the way. -/
def Walk.origin : Walk → Origin
  | ofHeader => .implied
  | ofKey => .dotted

/-- Whether a walk may pass through a table. What stands in braces is complete, and a table with a
header of its own is not extended by keys from outside. -/
def Walk.passes : Walk → Origin → Bool
  | ofHeader, origin => origin != .braces
  | ofKey, origin => origin == .implied || origin == .dotted

/-- Changes the table at the end of a path. Of the tables under one header the last is meant. -/
def update? (walk : Walk) (change : Origin → Fields → Option Fields) :
    List String → Origin → Fields → Option Fields
  | [], origin, fields => change origin fields
  | name :: path, _, fields =>
    match lookup? name fields with
    | none => do
      let inner ← update? walk change path walk.origin []
      some (fields ++ [(name, .table walk.origin inner)])
    | some (.table origin inner) =>
      if walk.passes origin then do
        let inner ← update? walk change path origin inner
        some (replace name (.table origin inner) fields)
      else none
    | some (.series items) =>
      match items.getLast? with
      | some (.table origin inner) => do
        let inner ← update? walk change path origin inner
        some (replace name (.series (items.dropLast ++ [.table origin inner])) fields)
      | _ => none
    | some _ => none

/-- A key: the names on the way to a table, and the name of the value there. -/
structure Key where
  /-- The way. -/
  path : List String
  /-- The name. -/
  name : String
deriving DecidableEq

/-- Puts a value under a key. A key with a way adds only to tables that such keys have made. -/
def assign? (key : Key) (value : Toml) : Origin → Fields → Option Fields :=
  update? .ofKey
    (fun origin fields =>
      if key.path.isEmpty || origin == .dotted then insertNew? key.name value fields else none)
    key.path

/-- The table in braces that gives values to keys. -/
def inBraces? (assignments : List (Key × Toml)) : Option Toml := do
  let fields ← assignments.foldlM (fun fields (key, value) => assign? key value .braces fields) []
  some (.table .braces fields)

end Toml

end ExecutionNode
