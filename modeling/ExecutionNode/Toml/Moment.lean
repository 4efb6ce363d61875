import ExecutionNode.Bytes.Hex

/-!
# Dates and times in TOML

A date may be followed by a time of day, and that by its distance from universal time.  A time of
day may also stand alone.
-/

namespace ExecutionNode.Toml

/-- A number of so many decimal digits within bounds. -/
def bounded? (width low high : Nat) (cs : List Char) : Option (Nat × List Char) := do
  let digits ← (cs.take width).mapM (Hex.digitValue? 10)
  let n := digits.foldl (fun n d => n * 10 + d) 0
  if digits.length = width ∧ low ≤ n ∧ n ≤ high then some (n, cs.drop width) else none

/-- A character that has to stand there. -/
def mark? (c : Char) : List Char → Option (List Char)
  | d :: rest => if d = c then some rest else none
  | [] => none

/-- Whether a year has a leap day. -/
def isLeapYear (year : Nat) : Bool := year % 4 = 0 && (year % 100 ≠ 0 || year % 400 = 0)

/-- How many days a month has. -/
def daysIn (year month : Nat) : Nat :=
  if month = 2 then if isLeapYear year then 29 else 28
  else if month = 4 ∨ month = 6 ∨ month = 9 ∨ month = 11 then 30
  else 31

/-- What follows a date. -/
def date? (cs : List Char) : Option (List Char) := do
  let (year, cs) ← bounded? 4 0 9999 cs
  let (month, cs) ← mark? '-' cs >>= bounded? 2 1 12
  let (_, cs) ← mark? '-' cs >>= bounded? 2 1 (daysIn year month)
  some cs

/-- What follows hours and minutes. -/
def minutes? (cs : List Char) : Option (List Char) := do
  let (_, cs) ← bounded? 2 0 23 cs
  let (_, cs) ← mark? ':' cs >>= bounded? 2 0 59
  some cs

/-- What follows a time of day. The last minute of a day may have a second more. -/
def time? (cs : List Char) : Option (List Char) := do
  let cs ← minutes? cs
  let (_, cs) ← mark? ':' cs >>= bounded? 2 0 60
  match cs with
  | '.' :: c :: rest => some (if c.isDigit then rest.dropWhile Char.isDigit else cs)
  | cs => some cs

/-- What follows a distance from universal time, if there is one. -/
def skipOffset (cs : List Char) : List Char :=
  match cs with
  | c :: rest =>
    if c = 'Z' ∨ c = 'z' then rest
    else if c = '+' ∨ c = '-' then (minutes? rest).getD cs
    else cs
  | [] => []

/-- What follows a time of day behind a date, if there is one. -/
def skipTime (cs : List Char) : List Char :=
  match cs with
  | c :: rest =>
    if c = 'T' ∨ c = 't' ∨ c = ' ' then ((time? rest).map skipOffset).getD cs else cs
  | [] => []

/-- Reads a date, a time of day or both. -/
def moment? (cs : List Char) : Option (String × List Char) := do
  let rest ←
    match date? cs with
    | some rest => some (skipTime rest)
    | none => time? cs
  some (String.ofList (cs.take (cs.length - rest.length)), rest)

end ExecutionNode.Toml
