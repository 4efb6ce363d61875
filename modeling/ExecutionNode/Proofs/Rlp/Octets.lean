import ExecutionNode.Rlp
import Mathlib.Data.List.Induction

/-!
# Numbers as octets

What a number's octets say about it.

* `natOfBE_minimalBE`, `minimalBE_injective`: the octets without leading zeros determine the number.
* `minimalBE_natOfBE`: octets that do not begin with a zero are those of a number.
* `length_minimalBE`: there are `natSize` of them, and the first is not zero
  (`head?_minimalBE_ne_zero`).
* `natSize_le_iff`: so many octets hold the numbers below a power of 256.
* `lex_minimalBE`: among numbers of one size the octets are ordered as the numbers are.
* `toBytesBE_injective`: a word is determined by its eight octets.
-/

namespace ExecutionNode

/-! ### Reading octets -/

@[simp] theorem natOfBE_nil : natOfBE [] = 0 := rfl

/-- One more octet at the end. -/
theorem natOfBE_concat (octets : Bytes) (b : UInt8) :
    natOfBE (octets ++ [b]) = natOfBE octets * 256 + b.toNat := by
  simp [natOfBE]

/-- An octet written from a number keeps its rest by 256. -/
theorem toNat_ofNat_octet (n : Nat) : (UInt8.ofNat n).toNat = n % 256 := UInt8.toNat_ofNat'

/-! ### As few octets as possible -/

theorem minimalBE_of_ne_zero {n : Nat} (h : n ≠ 0) :
    minimalBE n = minimalBE (n / 256) ++ [UInt8.ofNat n] := by
  rw [minimalBE, if_neg h]

@[simp] theorem natOfBE_minimalBE (n : Nat) : natOfBE (minimalBE n) = n := by
  induction n using minimalBE.induct with
  | case1 => rw [minimalBE_zero, natOfBE_nil]
  | case2 n h ih =>
    rw [minimalBE_of_ne_zero h, natOfBE_concat, ih, toNat_ofNat_octet]
    omega

/-- A number is determined by its octets. -/
theorem minimalBE_injective {m n : Nat} (h : minimalBE m = minimalBE n) : m = n := by
  rw [← natOfBE_minimalBE m, h, natOfBE_minimalBE]

theorem minimalBE_eq_nil_iff {n : Nat} : minimalBE n = [] ↔ n = 0 := by
  rw [← minimalBE_zero]
  exact ⟨minimalBE_injective, congrArg _⟩

/-- The octets of a number below 256 are the number itself. -/
theorem minimalBE_of_lt {n : Nat} (hpos : 0 < n) (hlt : n < 256) :
    minimalBE n = [UInt8.ofNat n] := by
  rw [minimalBE_of_ne_zero (by omega), Nat.div_eq_of_lt hlt, minimalBE_zero, List.nil_append]

/-- No leading zero is written. -/
theorem head?_minimalBE_ne_zero (n : Nat) : (minimalBE n).head? ≠ some 0 := by
  induction n using minimalBE.induct with
  | case1 => simp
  | case2 n h ih =>
    rw [minimalBE_of_ne_zero h]
    rcases Nat.eq_zero_or_pos (n / 256) with hzero | hpos
    · have hlow : UInt8.ofNat n ≠ 0 := fun hz => by
        have := congrArg UInt8.toNat hz
        rw [toNat_ofNat_octet] at this
        have : (0 : UInt8).toNat = 0 := rfl
        omega
      simpa [hzero] using hlow
    · have hne : minimalBE (n / 256) ≠ [] := fun hnil => by
        have := minimalBE_eq_nil_iff.mp hnil
        omega
      obtain ⟨b, rest, hcons⟩ := List.exists_cons_of_ne_nil hne
      rw [hcons] at ih ⊢
      exact ih

/-- Octets that do not begin with a zero are the octets of their number. -/
theorem minimalBE_natOfBE {octets : Bytes} (h : octets.head? ≠ some 0) :
    minimalBE (natOfBE octets) = octets := by
  induction octets using List.reverseRecOn with
  | nil => simp
  | append_singleton octets b ih =>
    have hb := b.toNat_lt
    rw [natOfBE_concat]
    cases octets with
    | nil =>
      have hpos : b.toNat ≠ 0 := fun hzero => h (by simpa using UInt8.toNat_inj.mp hzero)
      rw [natOfBE_nil, Nat.zero_mul, Nat.zero_add, minimalBE_of_lt (Nat.pos_of_ne_zero hpos) hb]
      simp
    | cons x octets =>
      have hhigh := ih (by simpa using h)
      have hne : natOfBE (x :: octets) ≠ 0 := fun hzero => by
        rw [hzero, minimalBE_zero] at hhigh
        cases hhigh
      have hdiv : (natOfBE (x :: octets) * 256 + b.toNat) / 256 = natOfBE (x :: octets) := by
        omega
      have hlow : UInt8.ofNat (natOfBE (x :: octets) * 256 + b.toNat) = b := by
        rw [← UInt8.toNat_inj, toNat_ofNat_octet]
        omega
      rw [minimalBE_of_ne_zero (by omega), hdiv, hhigh, hlow]

/-! ### How many octets there are -/

open Rlp

@[simp] theorem natSize_zero : natSize 0 = 0 := by rw [natSize, if_pos rfl]

theorem natSize_of_ne_zero {n : Nat} (h : n ≠ 0) : natSize n = natSize (n / 256) + 1 := by
  rw [natSize, if_neg h]

@[simp] theorem length_minimalBE (n : Nat) : (minimalBE n).length = natSize n := by
  induction n using minimalBE.induct with
  | case1 => simp
  | case2 n h ih => rw [minimalBE_of_ne_zero h, natSize_of_ne_zero h, List.length_append, ih]; rfl

/-- A larger number does not take fewer octets. -/
theorem natSize_mono {m n : Nat} (h : m ≤ n) : natSize m ≤ natSize n := by
  induction n using natSize.induct generalizing m with
  | case1 => exact Nat.le_of_eq (congrArg _ (Nat.le_zero.mp h))
  | case2 n hn ih =>
    rcases Nat.eq_zero_or_pos m with rfl | hm
    · simp
    · rw [natSize_of_ne_zero (Nat.ne_of_gt hm), natSize_of_ne_zero hn]
      exact Nat.succ_le_succ (ih (Nat.div_le_div_right h))

/-- A number that is not zero takes an octet. -/
theorem natSize_pos {n : Nat} (h : n ≠ 0) : 0 < natSize n := by
  rw [natSize_of_ne_zero h]; omega

/-- So many octets hold the numbers below a power of 256. -/
theorem natSize_le_iff {width n : Nat} : natSize n ≤ width ↔ n < Nat.pow 256 width := by
  induction width generalizing n with
  | zero =>
    have hone : Nat.pow 256 0 = 1 := rfl
    rcases Nat.eq_zero_or_pos n with rfl | hpos
    · simp
    · have := natSize_pos (Nat.ne_of_gt hpos)
      omega
  | succ width ih =>
    have hpow : Nat.pow 256 (width + 1) = Nat.pow 256 width * 256 := rfl
    rcases Nat.eq_zero_or_pos n with rfl | hpos
    · have : 0 < Nat.pow 256 width := Nat.pow_pos (by decide)
      rw [natSize_zero]
      omega
    · rw [natSize_of_ne_zero (Nat.ne_of_gt hpos), Nat.add_le_add_iff_right, ih]
      omega

/-- A word of 64 bits takes at most eight octets. -/
theorem natSize_le_eight {n : Nat} (h : n < UInt64.size) : natSize n ≤ 8 := natSize_le_iff.mpr h

/-- A word of 256 bits takes at most 32 octets. -/
theorem natSize_toNat_le (n : U256) : natSize n.toNat ≤ 32 := natSize_le_iff.mpr n.isLt

/-- A product with a power of 256 takes that many octets more at most. -/
theorem natSize_le_add {m n k : Nat} (h : n ≤ m * Nat.pow 256 k) :
    natSize n ≤ natSize m + k := by
  have hsize : m < Nat.pow 256 (natSize m) := natSize_le_iff.mp (Nat.le_refl _)
  have hpos : 0 < Nat.pow 256 k := Nat.pow_pos (by decide)
  have hpow : Nat.pow 256 (natSize m + k) = Nat.pow 256 (natSize m) * Nat.pow 256 k :=
    Nat.pow_add 256 (natSize m) k
  rw [natSize_le_iff, hpow]
  exact Nat.lt_of_le_of_lt h (Nat.mul_lt_mul_of_pos_right hsize hpos)

/-- A number takes no more octets than it counts. -/
theorem natSize_le_self (n : Nat) : natSize n ≤ n := by
  induction n using natSize.induct with
  | case1 => simp
  | case2 n h ih => rw [natSize_of_ne_zero h]; omega

/-! ### The order of octets -/

/-- What follows two strings of one length does not change their order. -/
theorem lex_append {α : Type} {r : α → α → Prop} {a b : List α} (h : List.Lex r a b)
    (hlength : a.length = b.length) (s t : List α) : List.Lex r (a ++ s) (b ++ t) := by
  induction h with
  | nil => simp at hlength
  | rel hxy => exact .rel hxy
  | cons _ ih => exact .cons (ih (by simpa using hlength))

/-- A common beginning does not change the order of what follows. -/
theorem lex_append_left {α : Type} {r : α → α → Prop} {s t : List α} (h : List.Lex r s t) :
    (a : List α) → List.Lex r (a ++ s) (a ++ t)
  | [] => h
  | _ :: a => .cons (lex_append_left h a)

/-- Of two numbers of one size the smaller one comes first. -/
theorem lex_minimalBE {m n : Nat} (hlt : m < n) (hsize : natSize m = natSize n) :
    List.Lex (· < ·) (minimalBE m) (minimalBE n) := by
  induction n using natSize.induct generalizing m with
  | case1 => omega
  | case2 n hn ih =>
    have hm : m ≠ 0 := fun hm => by
      have := natSize_pos hn
      rw [← hsize, hm, natSize_zero] at this
      omega
    rw [natSize_of_ne_zero hm, natSize_of_ne_zero hn] at hsize
    rw [minimalBE_of_ne_zero hm, minimalBE_of_ne_zero hn]
    -- Either the higher octets differ, or they agree and the last one decides.
    rcases Nat.lt_or_ge (m / 256) (n / 256) with hhigh | hhigh
    · exact lex_append (ih hhigh (by omega)) (by simpa using hsize) _ _
    · have hsame : m / 256 = n / 256 := by omega
      rw [hsame]
      refine lex_append_left (.rel ?_) _
      rw [UInt8.lt_iff_toNat_lt, toNat_ofNat_octet, toNat_ofNat_octet]
      omega

/-! ### A fixed number of octets -/

/-- Numbers that are equal up to the width and have the same low octets are equal. -/
theorem toBytesBE_injective {width m n : Nat} (hm : m < Nat.pow 256 width)
    (hn : n < Nat.pow 256 width) (h : toBytesBE width m = toBytesBE width n) : m = n := by
  induction width generalizing m n with
  | zero =>
    have hone : Nat.pow 256 0 = 1 := rfl
    omega
  | succ width ih =>
    have hpow : Nat.pow 256 (width + 1) = Nat.pow 256 width * 256 := rfl
    obtain ⟨hhigh, hlow⟩ := List.append_inj h (by simp)
    have hdiv : m / 256 = n / 256 :=
      ih (Nat.div_lt_of_lt_mul (by omega)) (Nat.div_lt_of_lt_mul (by omega)) hhigh
    have hmod : m % 256 = n % 256 := by
      rw [← toNat_ofNat_octet m, ← toNat_ofNat_octet n, (List.cons.inj hlow).1]
    omega

/-- A word is determined by its octets. -/
theorem bytesOfUInt64_injective {m n : UInt64}
    (h : (bytesOfUInt64 m).toList = (bytesOfUInt64 n).toList) : m = n := by
  have hbound (w : UInt64) : w.toNat < Nat.pow 256 8 := w.toNat_lt
  exact UInt64.toNat_inj.mp (toBytesBE_injective (hbound m) (hbound n) h)

end ExecutionNode
