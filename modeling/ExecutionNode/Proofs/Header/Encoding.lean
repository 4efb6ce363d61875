import ExecutionNode.Block
import ExecutionNode.Proofs.Rlp.Strings

/-!
# What the encodings of headers and withdrawals determine

A header is written as one list of strings, and so is a withdrawal.  Strings in a list are told
apart, so the encoding determines each of them, and with them the fields.

* `Header.encode_eq_list`: the marker in front of a header announces what follows it.
* `Header.strings_injective`: headers with the same encoding are written with the same strings.
* `Header.encode_injective`: a header with a base fee is determined by its encoding. Without one
  it is not: in front of a root over withdrawals a missing fee is written as a fee of zero.
* `Withdrawal.encode_injective`: so is a withdrawal.
-/

namespace ExecutionNode

open Rlp

/-- A number of 64 bits takes as many octets as its length announces. -/
theorem length_nat_word (n : UInt64) : (nat n.toNat).length = natLength n.toNat := by
  have := natSize_le_eight n.toNat_lt
  exact length_nat (by omega)

/-- A number of 256 bits takes as many octets as its length announces. -/
theorem length_nat_wide (n : U256) : (nat n.toNat).length = natLength n.toNat := by
  have := natSize_toNat_le n
  exact length_nat (by omega)

/-- A word is determined by its octets. -/
theorem minimalBE_word_injective {m n : UInt64} (h : minimalBE m.toNat = minimalBE n.toNat) :
    m = n := UInt64.toNat_inj.mp (minimalBE_injective h)

/-- A short string fits. -/
theorem FixedBytes.fits {n : Nat} (b : FixedBytes n) (h : n < UInt64.size) : Fits b.toList := by
  rw [Fits, b.length_toList]
  exact h

theorem fits_nil : Fits [] := by
  rw [Fits]
  decide

/-- The octets of a word fit. -/
theorem fits_word (n : UInt64) : Fits (minimalBE n.toNat) := by
  have := natSize_le_eight n.toNat_lt
  rw [Fits, length_minimalBE]
  exact Nat.lt_of_le_of_lt this (by decide)

/-- The octets of a wide number fit. -/
theorem fits_wide (n : U256) : Fits (minimalBE n.toNat) := by
  rw [Fits, length_minimalBE]
  exact Nat.lt_of_le_of_lt (natSize_toNat_le n) (by decide)

/-! ### Headers -/

namespace Header

variable {g h : Header}

/-- The string in the place of the base fee. -/
def feeString (h : Header) : List Bytes :=
  match h.baseFeePerGas, h.withdrawalsRoot with
  | some fee, _ => [minimalBE fee.toNat]
  | none, some _ => [[]]
  | none, none => []

/-- The string in the place of the root over the withdrawals. -/
def withdrawalsString (h : Header) : List Bytes := (h.withdrawalsRoot.map (·.toList)).toList

/-- The strings that a header is written as. -/
def strings (h : Header) : List Bytes :=
  [h.parentHash.toList, h.ommersHash.toList, h.beneficiary.toList, h.stateRoot.toList,
    h.transactionsRoot.toList, h.receiptsRoot.toList, h.logsBloom.toList,
    minimalBE h.difficulty.toNat, minimalBE h.number.toNat, minimalBE h.gasLimit.toNat,
    minimalBE h.gasUsed.toNat, minimalBE h.timestamp.toNat, h.extraData, h.mixHash.toList,
    (bytesOfUInt64 h.nonce).toList] ++ h.feeString ++ h.withdrawalsString

/-- The fields of a header are its strings, behind each other. -/
theorem fields_eq (h : Header) :
    h.fixedFields ++ h.feeField ++ h.withdrawalsField = h.strings.flatMap bytes := by
  have hfee : h.feeField = h.feeString.flatMap bytes := by
    unfold feeField feeString
    cases h.baseFeePerGas <;> cases h.withdrawalsRoot <;> simp [nat, bytes, marker]
  have hroot : h.withdrawalsField = h.withdrawalsString.flatMap bytes := by
    unfold withdrawalsField withdrawalsString
    cases h.withdrawalsRoot <;> simp
  simp [hfee, hroot, strings, fixedFields, nat]

/-- The announced length is that of the fields. -/
theorem payloadLength_eq (h : Header) :
    h.payloadLength = (h.fixedFields ++ h.feeField ++ h.withdrawalsField).length := by
  unfold payloadLength fixedFields feeField withdrawalsField
  cases h.baseFeePerGas <;> cases h.withdrawalsRoot <;>
    simp only [List.length_append, List.length_nil, List.length_singleton, length_bytes,
      length_nat_word, length_nat_wide]

/-- **A header is one list of strings.** -/
theorem encode_eq_list (h : Header) : h.encode = list (h.strings.flatMap bytes) := by
  rw [list, ← fields_eq, ← payloadLength_eq, encode, List.append_assoc, List.append_assoc,
    List.append_assoc]

/-- The strings of a header can be told apart if its free bytes can. -/
theorem fits_strings (hextra : Fits h.extraData) : ∀ s ∈ h.strings, Fits s := by
  have hfee : ∀ s ∈ h.feeString, Fits s := by
    unfold feeString
    cases h.baseFeePerGas <;> cases h.withdrawalsRoot <;> simp [fits_word, fits_nil]
  have hroot : ∀ s ∈ h.withdrawalsString, Fits s := by
    unfold withdrawalsString
    cases h.withdrawalsRoot <;> simp (disch := decide) [FixedBytes.fits]
  simp only [strings, List.forall_mem_append, List.forall_mem_cons]
  refine ⟨⟨?_, hfee⟩, hroot⟩
  simp (disch := decide) [FixedBytes.fits, fits_word, fits_wide, hextra]

/-- **Headers with the same encoding are written with the same strings.** -/
theorem strings_injective (hg : Fits g.extraData) (hh : Fits h.extraData)
    (heq : g.encode = h.encode) : g.strings = h.strings := by
  rw [encode_eq_list, encode_eq_list] at heq
  exact flatMap_bytes_injective (fits_strings hg) (fits_strings hh) (list_injective heq)

/-- A base fee that is there is told apart from what follows it. -/
theorem feeString_append_injective (hg : g.baseFeePerGas.isSome) (hh : h.baseFeePerGas.isSome)
    (heq : g.feeString ++ g.withdrawalsString = h.feeString ++ h.withdrawalsString) :
    g.baseFeePerGas = h.baseFeePerGas ∧ g.withdrawalsRoot = h.withdrawalsRoot := by
  obtain ⟨fee, hfee⟩ := Option.isSome_iff_exists.mp hg
  obtain ⟨fee', hfee'⟩ := Option.isSome_iff_exists.mp hh
  simp only [feeString, hfee, hfee', List.cons_append, List.nil_append, List.cons.injEq] at heq
  refine ⟨?_, ?_⟩
  · rw [hfee, hfee', minimalBE_word_injective heq.1]
  · have hroots := heq.2
    unfold withdrawalsString at hroots
    generalize g.withdrawalsRoot = r, h.withdrawalsRoot = r' at hroots ⊢
    cases r with
    | none => cases r' with
      | none => rfl
      | some root' => cases hroots
    | some root => cases r' with
      | none => cases hroots
      | some root' => rw [FixedBytes.ext_toList (List.cons.inj hroots).1]

/-- The header without what can be missing. -/
def bare (h : Header) : Header := { h with baseFeePerGas := none, withdrawalsRoot := none }

/-- The strings of two headers determine what is always there, and the strings behind it. -/
theorem bare_eq_of_strings (hstrings : g.strings = h.strings) :
    g.bare = h.bare ∧ g.feeString ++ g.withdrawalsString = h.feeString ++ h.withdrawalsString := by
  simp only [strings, List.cons_append, List.nil_append, List.cons.injEq] at hstrings
  obtain ⟨hparent, hommers, hbeneficiary, hstate, htransactions, hreceipts, hbloom, hdifficulty,
    hnumber, hgasLimit, hgasUsed, htimestamp, hextra, hmix, hnonce, htail⟩ := hstrings
  refine ⟨?_, htail⟩
  rw [bare, bare, mk.injEq]
  exact ⟨FixedBytes.ext_toList hparent, FixedBytes.ext_toList hommers,
    FixedBytes.ext_toList hbeneficiary, FixedBytes.ext_toList hstate,
    FixedBytes.ext_toList htransactions, FixedBytes.ext_toList hreceipts, rfl,
    FixedBytes.ext_toList hbloom, BitVec.eq_of_toNat_eq (minimalBE_injective hdifficulty),
    minimalBE_word_injective hnumber, minimalBE_word_injective hgasLimit,
    minimalBE_word_injective hgasUsed, minimalBE_word_injective htimestamp,
    FixedBytes.ext_toList hmix, bytesOfUInt64_injective hnonce, rfl, hextra⟩

/-- A header is what is always there, its base fee and its root over the withdrawals. -/
theorem ext_bare (hbare : g.bare = h.bare) (hfee : g.baseFeePerGas = h.baseFeePerGas)
    (hroot : g.withdrawalsRoot = h.withdrawalsRoot) : g = h :=
  calc g = { g.bare with
          baseFeePerGas := g.baseFeePerGas, withdrawalsRoot := g.withdrawalsRoot } := rfl
    _ = { h.bare with
          baseFeePerGas := h.baseFeePerGas, withdrawalsRoot := h.withdrawalsRoot } := by
        rw [hbare, hfee, hroot]
    _ = h := rfl

/-- **A header with a base fee is determined by its encoding.** -/
theorem encode_injective (hg : Fits g.extraData) (hh : Fits h.extraData)
    (hgfee : g.baseFeePerGas.isSome) (hhfee : h.baseFeePerGas.isSome)
    (heq : g.encode = h.encode) : g = h := by
  obtain ⟨hbare, htail⟩ := bare_eq_of_strings (strings_injective hg hh heq)
  obtain ⟨hfee, hroot⟩ := feeString_append_injective hgfee hhfee htail
  exact ext_bare hbare hfee hroot

end Header

/-! ### Withdrawals -/

namespace Withdrawal

/-- The strings that a withdrawal is written as. -/
def strings (w : Withdrawal) : List Bytes :=
  [minimalBE w.index.toNat, minimalBE w.validatorIndex.toNat, w.address.toList,
    minimalBE w.amount.toNat]

/-- A withdrawal is one list of strings. -/
theorem encode_eq_list (w : Withdrawal) : w.encode = list (w.strings.flatMap bytes) := by
  rw [← encodeAll_map_str, ← Item.encode_list]
  rfl

/-- The strings of a withdrawal can be told apart. -/
theorem fits_strings (w : Withdrawal) : ∀ s ∈ w.strings, Fits s := by
  simp (disch := decide) [strings, fits_word, FixedBytes.fits]

/-- **A withdrawal is determined by its encoding.** -/
theorem encode_injective {v w : Withdrawal} (h : v.encode = w.encode) : v = w := by
  rw [encode_eq_list, encode_eq_list] at h
  have hstrings := flatMap_bytes_injective v.fits_strings w.fits_strings (list_injective h)
  simp only [strings, List.cons.injEq] at hstrings
  obtain ⟨hindex, hvalidator, haddress, hamount, -⟩ := hstrings
  cases v
  cases w
  rw [mk.injEq]
  exact ⟨minimalBE_word_injective hindex, minimalBE_word_injective hvalidator,
    FixedBytes.ext_toList haddress, minimalBE_word_injective hamount⟩

end Withdrawal

end ExecutionNode
