/-!
# Significant bits

A floating point number holds the leading bits of a natural number.
-/

namespace ExecutionNode

/-- A natural number rounded to so many significant bits, a half to the even neighbour. -/
def significant (bits n : Nat) : Nat :=
  let unit := Nat.pow 2 (n.log2 + 1 - bits)
  let low := n / unit
  let rest := n % unit
  let up := unit < 2 * rest ∨ (unit = 2 * rest ∧ low % 2 = 1)
  (if up then low + 1 else low) * unit

/-- The number of significant bits of a floating point number. -/
def floatBits : Nat := 53

end ExecutionNode
