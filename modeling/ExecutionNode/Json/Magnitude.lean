import ExecutionNode.Json
import ExecutionNode.Significant

/-!
# Numbers that are too large

A number that is no word of 64 bits is held as a floating point number of 53 significant bits, and
a number that such a one cannot hold is refused.  Its digits are first gathered into a word of 64
bits: digits that no longer fit count as places before the point and are forgotten behind it.  The
word and the power of ten are rounded one by one and then multiplied, so the bound is
compared with the product of two rounded numbers and not with the number itself.
-/

namespace ExecutionNode.Json

/-- A number as a whole number times a power of ten. -/
structure Magnitude where
  /-- The whole number. -/
  significand : Nat
  /-- The power of ten. -/
  exponent : Int

namespace Magnitude

/-- The value of a decimal digit. -/
def digitOf (c : Char) : Nat := c.toNat - '0'.toNat

/-- Gathers the digits before the point; those that do not fit only move the point. -/
def ofWhole (digits : List Char) : Magnitude :=
  digits.foldl
    (fun m c =>
      let grown := m.significand * 10 + digitOf c
      if m.exponent = 0 ∧ grown < UInt64.size then { m with significand := grown }
      else { m with exponent := m.exponent + 1 })
    ⟨0, 0⟩

/-- Gathers the digits behind the point as long as they fit. -/
def withFraction (m : Magnitude) : List Char → Magnitude
  | [] => m
  | c :: rest =>
    let grown := m.significand * 10 + digitOf c
    if grown < UInt64.size then withFraction ⟨grown, m.exponent - 1⟩ rest else m

/-- The least number that is rounded beyond all floating point numbers. -/
def bound : Nat := Nat.pow 2 1024 - Nat.pow 2 970

/-- The largest power of ten that is a floating point number. -/
def largestPower : Nat := 308

/-- Whether a floating point number holds the number. -/
def isFinite (m : Magnitude) : Bool :=
  m.significand = 0 || m.exponent < 0 ||
    (m.exponent ≤ largestPower &&
      significant floatBits m.significand * significant floatBits (Nat.pow 10 m.exponent.toNat)
        < bound)

end Magnitude

end ExecutionNode.Json
