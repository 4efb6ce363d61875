/-!
# JSON values

The fields of an object keep their order and may repeat, because decoders refuse a repeated
field and the printed order shows.  A number remembers only what a decoder can ask: whether it
is a natural number, the absolute value behind a minus sign (`-0` included), or written with a
point or an exponent.
-/

namespace ExecutionNode

/-- A JSON number. -/
inductive Json.Number where
  /-- Digits only. -/
  | natural (n : Nat)
  /-- Digits behind a minus sign. -/
  | negative (n : Nat)
  /-- Written with a point or an exponent, as it stands. -/
  | real (text : String)
deriving DecidableEq

/-- A JSON value. -/
inductive Json where
  /-- The null value. -/
  | null
  /-- A truth value. -/
  | bool (b : Bool)
  /-- A number. -/
  | num (n : Json.Number)
  /-- A string. -/
  | str (s : String)
  /-- An array. -/
  | arr (items : List Json)
  /-- An object, with its fields in the order of the text. -/
  | obj (fields : List (String × Json))

namespace Json

/-- A natural number. -/
def ofNat (n : Nat) : Json := .num (.natural n)

/-- The value of the first field of a name. -/
def field? (name : String) : Json → Option Json
  | .obj fields => (fields.find? (·.1 = name)).map (·.2)
  | _ => none

end Json

end ExecutionNode
