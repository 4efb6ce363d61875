import ExecutionNode.Duration
import ExecutionNode.Text.Blank

/-!
# Durations in words

A duration is written as spans from years down to nanoseconds, as in `1h 30m`.  A month is 30.44
days and a year is 365.25 days.

When it is read, a span is a number, which may have a fraction and blanks between its digits, and
the name of a unit; the spans may come in any order and add up.  A number without a unit is
refused, except for `0` alone.  A fraction has to come out in whole nanoseconds, and from hours up
in whole seconds.  All numbers on the way have to be words of 64 bits.
-/

namespace ExecutionNode.Duration

/-- A unit of time. -/
inductive Span where
  /-- A nanosecond. -/
  | nanosecond
  /-- A microsecond. -/
  | microsecond
  /-- A millisecond. -/
  | millisecond
  /-- A second. -/
  | second
  /-- A minute. -/
  | minute
  /-- An hour. -/
  | hour
  /-- A day. -/
  | day
  /-- A week. -/
  | week
  /-- A month. -/
  | month
  /-- A year. -/
  | year
deriving DecidableEq

namespace Span

/-- The units, the smallest first, with the names by which they are known. -/
def names : List (Span × List String) :=
  [(nanosecond, ["nanos", "nsec", "ns"]), (microsecond, ["usec", "us", "µs"]),
    (millisecond, ["millis", "msec", "ms"]), (second, ["seconds", "second", "secs", "sec", "s"]),
    (minute, ["minutes", "minute", "min", "mins", "m"]),
    (hour, ["hours", "hour", "hrs", "hr", "h"]),
    (day, ["days", "day", "d"]), (week, ["weeks", "week", "wk", "wks", "w"]),
    (month, ["months", "month", "M"]), (year, ["years", "year", "yr", "yrs", "y"])]

/-- The unit of a name. -/
def ofName? (name : String) : Option Span := (names.find? (·.2.contains name)).map (·.1)

/-- The nanoseconds of a unit that is shorter than a second. -/
def subsecond? : Span → Option Nat
  | nanosecond => some 1
  | microsecond => some 1000
  | millisecond => some 1000000
  | _ => none

/-- The whole seconds of a unit. -/
def seconds : Span → Nat
  | nanosecond | microsecond | millisecond => 0
  | second => 1
  | minute => 60
  | hour => 3600
  | day => 86400
  | week => 604800
  | month => 2630016
  | year => 31557600

end Span

/-! ### Reading -/

/-- A word of 64 bits. -/
def word? (n : Nat) : Option Nat := if n < UInt64.size then some n else none

/-- Adds seconds and nanoseconds. -/
def add? (d : Duration) (seconds nanoseconds : Nat) : Option Duration := do
  let below ← word? (d.nanoseconds % 1000000000 + nanoseconds)
  ofNanoseconds? ((d.nanoseconds / 1000000000 + seconds) * 1000000000 + below)

/-- Adds so many of a unit. -/
def addWhole? (d : Duration) (unit : Span) (n : Nat) : Option Duration :=
  match unit.subsecond? with
  | some size => do d.add? 0 (← word? (n * size))
  | none => do d.add? (← word? (n * unit.seconds)) 0

/-- Divides without a rest. -/
def exactly? (n d : Nat) : Option Nat := if n % d = 0 then some (n / d) else none

/-- Adds a fraction of a unit. A nanosecond has no fractions. -/
def addFraction? (d : Duration) (unit : Span) (numerator denominator : Nat) : Option Duration :=
  match unit with
  | .nanosecond => none
  | .microsecond | .millisecond | .second | .minute => do
    let size := unit.subsecond?.getD (unit.seconds * 1000000000)
    d.add? 0 (← exactly? (← word? (numerator * size)) denominator)
  | _ => do d.add? (← exactly? (← word? (numerator * unit.seconds)) denominator) 0

/-- Whether the character may stand in the name of a unit. -/
def isUnitLetter (c : Char) : Bool := c.isAlpha || c = 'µ'

/-- The digits in front, blanks between and behind them left out, and what follows. -/
def spacedDigits : List Char → List Char × List Char
  | [] => ([], [])
  | c :: rest =>
    if c.isDigit then
      let (digits, rest) := spacedDigits rest
      (c :: digits, rest)
    else if isBlank c then spacedDigits rest
    else ([], c :: rest)

/-- The number that digits stand for. -/
def digitsValue (digits : List Char) : Nat :=
  digits.foldl (fun n c => n * 10 + (c.toNat - '0'.toNat)) 0

/-- A span with what follows it. -/
def readSpan? (d : Duration) (cs : List Char) : Option (Duration × List Char) := do
  let (whole, rest) := spacedDigits cs
  let n ← word? (digitsValue whole)
  let (fraction, rest) ←
    match rest with
    | '.' :: rest =>
      let (digits, rest) := spacedDigits rest
      if digits.isEmpty then none else some (digits, rest)
    | rest => some ([], rest)
  let unit ← Span.ofName? (String.ofList (rest.takeWhile isUnitLetter))
  let d ← d.addWhole? unit n
  let d ←
    if fraction.isEmpty then some d
    else do d.addFraction? unit (digitsValue fraction) (← word? (Nat.pow 10 fraction.length))
  some (d, rest.dropWhile isUnitLetter)

/-- Reads spans until the text ends. A span begins with a digit. -/
def readSpans? : Nat → Duration → List Char → Option Duration
  | 0, _, _ => none
  | fuel + 1, d, cs =>
    match cs.dropWhile isBlank with
    | [] => some d
    | c :: rest => do
      if !c.isDigit then none
      let (d, rest) ← readSpan? d (c :: rest)
      match rest with
      | [] => some d
      | _ => readSpans? fuel d rest

/-- Reads a duration. -/
def ofWords? (s : String) : Option Duration :=
  if s = "0" then some zero
  else if (s.toList.dropWhile isBlank).isEmpty then none
  else readSpans? (s.length + 1) zero s.toList

/-! ### Writing -/

/-- A number of a unit whose name has a plural; nothing for zero. -/
def counted (n : Nat) (unit : String) : List String :=
  if n = 0 then [] else [toString n ++ unit ++ (if n = 1 then "" else "s")]

/-- A number of a unit that is abbreviated; nothing for zero. -/
def abbreviated (n : Nat) (unit : String) : List String :=
  if n = 0 then [] else [toString n ++ unit]

/-- The duration in words. -/
def words (d : Duration) : String :=
  let seconds := d.nanoseconds / 1000000000
  let nanos := d.nanoseconds % 1000000000
  let ofYear := seconds % Span.seconds .year
  let ofMonth := ofYear % Span.seconds .month
  let ofDay := ofMonth % Span.seconds .day
  let spans :=
    counted (seconds / Span.seconds .year) "year" ++ counted (ofYear / Span.seconds .month) "month"
      ++ counted (ofMonth / Span.seconds .day) "day" ++ abbreviated (ofDay / 3600) "h"
      ++ abbreviated (ofDay % 3600 / 60) "m" ++ abbreviated (ofDay % 60) "s"
      ++ abbreviated (nanos / 1000000) "ms" ++ abbreviated (nanos / 1000 % 1000) "us"
      ++ abbreviated (nanos % 1000) "ns"
  if spans.isEmpty then "0s" else " ".intercalate spans

end ExecutionNode.Duration
