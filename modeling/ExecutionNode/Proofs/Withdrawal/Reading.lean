import ExecutionNode.Proofs.Header.Encoding
import ExecutionNode.Proofs.Rlp.Canonical

/-!
# Withdrawals are read from one form only

A withdrawal is read by its four members, and what they take must be exactly what the list
announces.  Every withdrawal is short enough to be announced, so reading undoes writing without any
condition, and nothing else is read.

* `Withdrawal.reads_decode?`: a withdrawal is read from its tree.
* `Withdrawal.fits_toItem`: which always can be announced.
* `Withdrawal.decode?_eq_some_iff`: what is read is the encoding of what it is read as.
* `Withdrawal.encodeAll_injective`: withdrawals behind each other are told apart.
* `Withdrawal.binary_form_bijective`: writing and reading undo each other.
-/

namespace ExecutionNode.Withdrawal

open Rlp

variable {w : Withdrawal} {input rest : Bytes}

/-! ### One withdrawal -/

theorem reads_decode? : Reads decode? toItem := by
  refine ReadsFields.exactly ?_
  refine .cons reads_uint64? fun index => ?_
  refine .cons reads_uint64? fun validatorIndex => ?_
  refine .cons (reads_fixed? 20) fun address => ?_
  refine .cons reads_uint64? fun amount => ?_
  refine .pure fun other => ⟨?_, fun h => by simp [← h]⟩
  rintro ⟨rfl, rfl, rfl, rfl, -⟩
  rfl

/-- None of the strings of a withdrawal is longer than its address. -/
theorem length_of_mem_strings (w : Withdrawal) : ∀ s ∈ w.strings, s.length ≤ 20 := by
  have hword (n : UInt64) : natSize n.toNat ≤ 20 :=
    Nat.le_trans (natSize_le_eight n.toNat_lt) (by decide)
  simp [strings, FixedBytes.length_toList, hword]

/-- Every withdrawal can be announced. -/
theorem fits_toItem (w : Withdrawal) : w.toItem.Fits := by
  have hlength : (w.strings.flatMap bytes).length ≤ 4 * (1 + 20 + 20) :=
    length_flatMap_bytes_le w.length_of_mem_strings
  rw [← encodeAll_map_str] at hlength
  exact Nat.lt_of_le_of_lt hlength (by decide)

/-- **A withdrawal is read exactly from its encoding**, whatever follows it. -/
theorem decode?_eq_some_iff : decode? input = some (w, rest) ↔ input = w.encode ++ rest := by
  rw [reads_decode? input w rest]
  exact and_iff_right w.fits_toItem

/-! ### Withdrawals behind each other -/

/-- **Withdrawals behind each other are told apart**, however many there are. -/
theorem encodeAll_injective {ws others : List Withdrawal}
    (h : Item.encodeAll (ws.map toItem) = Item.encodeAll (others.map toItem)) : ws = others := by
  have hread (vs : List Withdrawal) : many decode? (Item.encodeAll (vs.map toItem)) = some vs :=
    (many_eq_some_iff reads_decode?).mpr ⟨fun w _ => w.fits_toItem, rfl⟩
  exact Option.some.inj ((hread ws).symm.trans (h ▸ hread others))

/-! ### Writing and reading -/

/-- **Writing a withdrawal and reading it undo each other.**

* A withdrawal is written as the canonical encoding of its four members.
* It is read back from there, whatever follows, and exactly what follows is left.
* Whatever a withdrawal is read from begins with its encoding, and the rest is left. So a marker
  that announces more or less than the members take is refused, and so is every number that is
  not written with as few octets as possible.
* Hence what begins with a withdrawal tells the withdrawal and what follows it. -/
theorem binary_form_bijective :
    (∀ w : Withdrawal, w.encode = w.toItem.canonical) ∧
      (∀ (w : Withdrawal) (rest : Bytes), decode? (w.encode ++ rest) = some (w, rest)) ∧
      (∀ (input : Bytes) (w : Withdrawal) (rest : Bytes), decode? input = some (w, rest) →
        input = w.encode ++ rest) ∧
      ∀ (v w : Withdrawal) (left right : Bytes), v.encode ++ left = w.encode ++ right →
        v = w ∧ left = right := by
  have hback (w : Withdrawal) (rest : Bytes) : decode? (w.encode ++ rest) = some (w, rest) :=
    decode?_eq_some_iff.mpr rfl
  refine ⟨fun w => w.toItem.encode_eq_canonical, hback, fun _ _ _ => decode?_eq_some_iff.mp, ?_⟩
  intro v w left right heq
  have hread := hback v left
  rw [heq, hback w right] at hread
  exact Prod.mk.inj (Option.some.inj hread.symm)

/-- Four empty strings and 20 octets behind a marker that leaves out the last of them. -/
example : decode? ([0xd7, 0x80, 0x80, 0x94] ++ List.replicate 20 0 ++ [0x80]) = none := by decide

end ExecutionNode.Withdrawal
