import ExecutionNode.Json.Scan
import ExecutionNode.Json.Shape

/-!
# Reading JSON

A value is read from the front of a text, under the shape that it is read for.  Recursion is
bounded by the length of the text, as each bracket uses up one character.  Apart from that, the
brackets of the parts that are asked for may only be nested so deep.

An array that is read for a byte string must begin with so many octets.  Behind them an attempt is
made to read one more.  If it succeeds, the array is too long; if it fails, what it looked at is
passed over, whatever it was, and the array has to end there.
-/

namespace ExecutionNode.Json

/-! ### Byte strings -/

/-- Attempts to read an octet. A part of another kind is read as what it is. -/
def scanOctet (cs : List Char) : Scan UInt8 :=
  let passing {α : Type} : Scan α → Scan UInt8
    | .ok (_, rest) => .error rest
    | .error rest => .error rest
  match cs with
  | '"' :: rest => passing (stringFrom [] rest)
  | 'n' :: rest => passing (scanWord "ull".toList rest)
  | 't' :: rest => passing (scanWord "rue".toList rest)
  | 'f' :: rest => passing (scanWord "alse".toList rest)
  | c :: rest =>
    if c = '-' ∨ isDigit c then
      match scanNumber (c :: rest) with
      | .ok (.natural n, rest) =>
        if n < UInt8.size then .ok (UInt8.ofNat n, rest) else .error rest
      | other => passing other
    else .error (c :: rest)
  | [] => .error []

/-- Reads the end of an array from its bracket on. -/
def arrayEnd? (cs : List Char) : Option (List Char) :=
  match skipBlanks cs with
  | ']' :: rest => some rest
  | _ => none

/-- Reads the end of an array of octets behind the last one. -/
def octetsEnd? (cs : List Char) : Option (List Char) :=
  match skipBlanks cs with
  | ',' :: rest =>
    match scanOctet (skipBlanks rest) with
    | .ok _ => none
    | .error left => arrayEnd? left
  | cs => arrayEnd? cs

/-- Reads so many more octets of an array and its end, with the octets before them in reverse. -/
def octets (before : List UInt8) : Nat → List Char → Option (List UInt8 × List Char)
  | 0, cs => (octetsEnd? cs).map fun rest => (before.reverse, rest)
  | n + 1, cs =>
    let next :=
      if before.isEmpty then some cs
      else
        match skipBlanks cs with
        | ',' :: rest => some rest
        | _ => none
    match next with
    | none => none
    | some cs =>
      match scanOctet (skipBlanks cs) with
      | .ok (b, rest) => octets (b :: before) n rest
      | .error _ => none

/-! ### Values -/

/-- How deep the brackets of the parts that are asked for may be nested. -/
def deepest : Nat := 127

mutual

/-- Reads a value. -/
def value : (bound depth : Nat) → Shape → List Char → Option (Json × List Char)
  | 0, _, _, _ => none
  | bound + 1, depth, shape, cs =>
    match skipBlanks cs, shape with
    | 'n' :: 'u' :: 'l' :: 'l' :: rest, _ => some (.null, rest)
    | cs, .verbatim =>
      (value bound depth .skipped cs).map fun (_, rest) =>
        (.str (String.ofList (cs.take (cs.length - rest.length))), rest)
    | 't' :: 'r' :: 'u' :: 'e' :: rest, _ => some (.bool true, rest)
    | 'f' :: 'a' :: 'l' :: 's' :: 'e' :: rest, _ => some (.bool false, rest)
    | '"' :: rest, .skipped => (skipString rest).map fun rest => (.null, rest)
    | '"' :: rest, _ => (stringFrom [] rest).toOption.map fun (s, rest) => (.str s, rest)
    | '[' :: rest, shape =>
      match deeper? depth shape, shape with
      | none, _ => none
      | some _, .octets n =>
        (octets [] n rest).map fun (found, rest) => (.arr (found.map fun b => .ofNat b.toNat), rest)
      | some depth, shape =>
        match skipBlanks rest with
        | ']' :: rest => some (.arr [], rest)
        | rest => items bound depth shape 0 [] rest
    | '\x7b' :: rest, shape =>
      match deeper? depth shape with
      | none => none
      | some depth =>
        match skipBlanks rest with
        | '\x7d' :: rest => some (.obj [], rest)
        | rest => fields bound depth shape [] rest
    | rest, .skipped => (skipNumber rest).map fun rest => (.null, rest)
    | rest, _ => (scanNumber rest).toOption.map fun (n, rest) => (.num n, rest)
where
  /-- How deep brackets may still be nested inside one more, if there may be one more. -/
  deeper? (depth : Nat) (shape : Shape) : Option Nat :=
    if shape.isSkipped then some depth else if depth = 0 then none else some (depth - 1)

/-- Reads the members of an array from a position on, with those before it in reverse. -/
def items : (bound depth : Nat) → Shape → (position : Nat) → (before : List Json) → List Char →
    Option (Json × List Char)
  | 0, _, _, _, _, _ => none
  | bound + 1, depth, shape, position, before, cs =>
    match value bound depth (shape.item position) cs with
    | none => none
    | some (item, rest) =>
      match skipBlanks rest with
      | ',' :: rest => items bound depth shape (position + 1) (item :: before) rest
      | ']' :: rest => some (.arr (item :: before).reverse, rest)
      | _ => none

/-- Reads the fields of an object from the next one on, with those before it in reverse. -/
def fields : (bound depth : Nat) → Shape → (before : List (String × Json)) → List Char →
    Option (Json × List Char)
  | 0, _, _, _, _ => none
  | bound + 1, depth, shape, before, cs =>
    match skipBlanks cs with
    | '"' :: rest =>
      match name? shape rest with
      | none => none
      | some (name, rest) =>
        match skipBlanks rest with
        | ':' :: rest =>
          match value bound depth (shape.field name) rest with
          | none => none
          | some (item, rest) =>
            match skipBlanks rest with
            | ',' :: rest => fields bound depth shape ((name, item) :: before) rest
            | '\x7d' :: rest => some (.obj ((name, item) :: before).reverse, rest)
            | _ => none
        | _ => none
    | _ => none
where
  /-- Reads the name of a field behind its opening quote. -/
  name? (shape : Shape) (cs : List Char) : Option (String × List Char) :=
    if shape.isSkipped then (skipString cs).map fun rest => ("", rest)
    else (stringFrom [] cs).toOption

end

/-- Reads a value from the front of a text. -/
def read? (shape : Shape) (cs : List Char) : Option (Json × List Char) :=
  value (2 * cs.length + 2) deepest shape cs

/-- Reads a text that holds one value and blanks around it. -/
def parse? (shape : Shape) (s : String) : Option Json := do
  let (j, rest) ← read? shape s.toList
  if (skipBlanks rest).isEmpty then some j else none

end ExecutionNode.Json
