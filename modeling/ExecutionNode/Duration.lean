/-!
# Durations

Spans of time are counted in nanoseconds.  The whole seconds of a duration are a word of 64 bits,
so a sum of durations need not be one.  Where a duration is shown for diagnosis it is written in the
largest unit of which it holds at least one, with the digits of the rest behind a point.
-/

namespace ExecutionNode

/-- The number of nanoseconds from which on seconds are no longer a word of 64 bits. -/
def Duration.limit : Nat := UInt64.size * 1000000000

/-- A span of time. -/
structure Duration where
  /-- Its nanoseconds. -/
  nanoseconds : Nat
  /-- Its seconds are a word of 64 bits. -/
  inRange : nanoseconds < Duration.limit
deriving DecidableEq

namespace Duration

/-- So many nanoseconds, if they are a duration. -/
def ofNanoseconds? (n : Nat) : Option Duration := if h : n < limit then some ⟨n, h⟩ else none

theorem ofNanoseconds?_of_lt {n : Nat} (h : n < limit) : ofNanoseconds? n = some ⟨n, h⟩ := dif_pos h

/-- No time at all. -/
def zero : Duration := ⟨0, by decide⟩

/-- So many milliseconds. -/
def milliseconds (n : UInt64) : Duration where
  nanoseconds := n.toNat * 1000000
  inRange := Nat.mul_lt_mul_of_lt_of_le n.toNat_lt (by decide) (by decide)

/-- So many seconds. -/
def seconds (n : UInt64) : Duration where
  nanoseconds := n.toNat * 1000000000
  inRange := Nat.mul_lt_mul_of_pos_right n.toNat_lt (by decide)

/-- The digits of a fraction `n / 10 ^ places`, without zeros at the end. -/
def fractionDigits (places n : Nat) : String :=
  let digits := (Nat.toDigits 10 n)
  let padded := List.replicate (places - digits.length) '0' ++ digits
  String.ofList (padded.reverse.dropWhile (· = '0')).reverse

/-- A number of parts of a unit, of which `10 ^ places` make one, in that unit. -/
def inUnit (places n : Nat) : String :=
  let size := Nat.pow 10 places
  if n % size = 0 then toString (n / size)
  else toString (n / size) ++ "." ++ fractionDigits places (n % size)

/-- The duration in its largest unit. -/
def text (d : Duration) : String :=
  let n := d.nanoseconds
  if n ≥ 1000000000 then inUnit 9 n ++ "s"
  else if n ≥ 1000000 then inUnit 6 n ++ "ms"
  else if n ≥ 1000 then inUnit 3 n ++ "µs"
  else inUnit 0 n ++ "ns"

end Duration

end ExecutionNode
