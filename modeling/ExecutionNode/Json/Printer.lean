import ExecutionNode.Json

/-!
# Writing JSON

The compact form: no blanks, fields in the order of the value.  A quote, a backslash and the
control characters below the blank are escaped, the five with a letter of their own by that
letter and the others by four lower case hexadecimal digits; every other character stands for
itself.
-/

namespace ExecutionNode.Json

/-- One lower case hexadecimal digit. -/
private def escapeDigit (n : Nat) : Char := "0123456789abcdef".toList.getD n '0'

/-- A character inside a string. -/
def escape (c : Char) : List Char :=
  if c = '"' then ['\\', '"']
  else if c = '\\' then ['\\', '\\']
  else if c = '\n' then ['\\', 'n']
  else if c = '\r' then ['\\', 'r']
  else if c = '\t' then ['\\', 't']
  else if c = '\x08' then ['\\', 'b']
  else if c = '\x0c' then ['\\', 'f']
  else if c.toNat < 0x20 then
    ['\\', 'u', '0', '0', escapeDigit (c.toNat / 16), escapeDigit (c.toNat % 16)]
  else [c]

/-- A string with its quotes. -/
def quoted (s : String) : List Char := '"' :: s.toList.flatMap escape ++ ['"']

/-- A number. -/
def Number.print : Number → List Char
  | .natural n => Nat.toDigits 10 n
  | .negative n => '-' :: Nat.toDigits 10 n
  | .real text => text.toList

mutual

/-- The characters of a value. -/
def print : Json → List Char
  | .null => "null".toList
  | .bool true => "true".toList
  | .bool false => "false".toList
  | .num n => n.print
  | .str s => quoted s
  | .arr items => '[' :: printItems items ++ [']']
  | .obj fields => '\x7b' :: printFields fields ++ ['\x7d']

/-- The members of an array, with commas between them. -/
def printItems : List Json → List Char
  | [] => []
  | [item] => print item
  | item :: items => print item ++ ',' :: printItems items

/-- The fields of an object, with commas between them. -/
def printFields : List (String × Json) → List Char
  | [] => []
  | [(name, value)] => quoted name ++ ':' :: print value
  | (name, value) :: fields => quoted name ++ ':' :: print value ++ ',' :: printFields fields

end

/-- The compact text of a value. -/
def render (j : Json) : String := String.ofList (print j)

end ExecutionNode.Json
