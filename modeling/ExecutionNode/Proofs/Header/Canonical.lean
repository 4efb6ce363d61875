import ExecutionNode.Payload
import ExecutionNode.Proofs.Header.Encoding
import ExecutionNode.Proofs.Rlp.Canonical

/-!
# The binary form of a header

A header is written field by field behind a length that is computed beforehand.  The outcome is the
canonical encoding of its tree, and the two lengths are the right ones, whatever the fields are and
however many free bytes there are.

Two headers share their binary form only if a base fee is missing in one of them and zero in the
other, in front of a root over withdrawals.  No free bytes are too long for that: what stands
behind them is short, so that they are told apart from it even where no marker could announce them.

* `Header.encode_canonical`: the binary form and its lengths.
* `Header.strings_eq_of_encode`: headers with one binary form are written with the same strings.
* `Header.binary_form_shared_iff`: which headers share their binary form, and what their hashes tell
  apart.
-/

namespace ExecutionNode.Header

open Rlp

variable {g h : Header}

/-! ### The tree of a header -/

/-- The tree of a header is the list of its strings. -/
theorem toItem_eq (h : Header) : h.toItem = .list (h.strings.map .str) := by
  unfold toItem strings feeString withdrawalsString
  cases h.baseFeePerGas <;> cases h.withdrawalsRoot <;> rfl

/-- What is written field by field is the encoding of the tree. -/
theorem encode_eq_toItem (h : Header) : h.encode = h.toItem.encode := by
  rw [toItem_eq, Item.encode_list, encodeAll_map_str, encode_eq_list]

/-- **A header is written canonically**: as the defined encoding of its tree, behind the length of
what follows. The length announced for the whole is the number of octets written. -/
theorem encode_canonical (h : Header) :
    h.encode = h.toItem.canonical ∧
      (∃ payload, h.encode = marker 0xc0 h.payloadLength ++ payload ∧
        h.payloadLength = payload.length) ∧
      h.length = h.encode.length := by
  have hpayload : h.encode =
      marker 0xc0 h.payloadLength ++ (h.fixedFields ++ h.feeField ++ h.withdrawalsField) := by
    rw [encode, List.append_assoc, List.append_assoc, List.append_assoc]
  refine ⟨?_, ⟨_, hpayload, h.payloadLength_eq⟩, ?_⟩
  · rw [encode_eq_toItem, Item.encode_eq_canonical]
  · rw [hpayload, List.length_append, length_marker, ← payloadLength_eq, Header.length]

/-! ### Around the free bytes -/

/-- The strings in front of the free bytes. -/
def frontStrings (h : Header) : List Bytes :=
  [h.parentHash.toList, h.ommersHash.toList, h.beneficiary.toList, h.stateRoot.toList,
    h.transactionsRoot.toList, h.receiptsRoot.toList, h.logsBloom.toList,
    minimalBE h.difficulty.toNat, minimalBE h.number.toNat, minimalBE h.gasLimit.toNat,
    minimalBE h.gasUsed.toNat, minimalBE h.timestamp.toNat]

/-- The strings behind them. -/
def backStrings (h : Header) : List Bytes :=
  [h.mixHash.toList, (bytesOfUInt64 h.nonce).toList] ++ h.feeString ++ h.withdrawalsString

theorem strings_eq (h : Header) : h.strings = h.frontStrings ++ h.extraData :: h.backStrings := by
  simp [strings, frontStrings, backStrings]

theorem fits_frontStrings (h : Header) : ∀ s ∈ h.frontStrings, Fits s := by
  simp (disch := decide) [frontStrings, FixedBytes.fits, fits_word, fits_wide]

/-- There are at most four strings behind the free bytes. -/
theorem length_backStrings (h : Header) : h.backStrings.length ≤ 4 := by
  unfold backStrings feeString withdrawalsString
  cases h.baseFeePerGas <;> cases h.withdrawalsRoot <;> simp

/-- None of them is longer than a hash. -/
theorem length_of_mem_backStrings (h : Header) : ∀ s ∈ h.backStrings, s.length ≤ 32 := by
  have hword (n : UInt64) : natSize n.toNat ≤ 32 :=
    Nat.le_trans (natSize_le_eight n.toNat_lt) (by decide)
  unfold backStrings feeString withdrawalsString
  cases h.baseFeePerGas <;> cases h.withdrawalsRoot <;>
    simp [FixedBytes.length_toList, hword]

theorem fits_backStrings (h : Header) :
    (∀ s ∈ h.backStrings, Fits s) ∧ Fits (h.backStrings.flatMap bytes) := by
  have hshort := h.length_of_mem_backStrings
  have hword : 4 * (1 + 32 + 32) < UInt64.size := by decide
  constructor
  · intro s hs
    exact Nat.lt_of_le_of_lt (hshort s hs) (by decide)
  · refine Nat.lt_of_le_of_lt (length_flatMap_bytes_le hshort) ?_
    exact Nat.lt_of_le_of_lt (Nat.mul_le_mul_right _ h.length_backStrings) hword

/-- **Headers with one binary form are written with the same strings**, however many free bytes
they have. -/
theorem strings_eq_of_encode (heq : g.encode = h.encode) : g.strings = h.strings := by
  rw [encode_eq_list, encode_eq_list] at heq
  have hall := list_injective heq
  rw [strings_eq, strings_eq, List.flatMap_append, List.flatMap_append, List.flatMap_cons,
    List.flatMap_cons] at hall
  have hlength : g.frontStrings.length = h.frontStrings.length := rfl
  obtain ⟨hfront, hrest⟩ :=
    flatMap_bytes_append_injective hlength g.fits_frontStrings h.fits_frontStrings hall
  obtain ⟨hextra, hback⟩ :=
    bytes_append_injective_of_fits g.fits_backStrings.2 h.fits_backStrings.2 hrest
  rw [strings_eq, strings_eq, hfront, hextra,
    flatMap_bytes_injective g.fits_backStrings.1 h.fits_backStrings.1 hback]

/-! ### Headers that are confused -/

/-- In front of a root over withdrawals, the base fee of the first header is missing and that of
the second is zero. In nothing else the two differ. -/
structure Confused (g h : Header) : Prop where
  /-- There is a root over withdrawals. -/
  root : g.withdrawalsRoot.isSome
  /-- There is no base fee. -/
  missing : g.baseFeePerGas = none
  /-- The second header has one of zero. -/
  eq : h = { g with baseFeePerGas := some 0 }

/-- Headers that are confused have one binary form. -/
theorem Confused.encode_eq (hconfused : Confused g h) : g.encode = h.encode := by
  obtain ⟨root, hroot⟩ := Option.isSome_iff_exists.mp hconfused.root
  have hstrings : g.strings = h.strings := by
    rw [hconfused.eq]
    simp only [strings, feeString, withdrawalsString, hroot, hconfused.missing, UInt64.toNat_zero,
      minimalBE_zero]
  rw [encode_eq_list, encode_eq_list, hstrings]

/-- The strings behind the nonce tell a missing fee from one that is there, except for a fee of
zero. -/
theorem confused_of_missing (hbare : g.bare = h.bare) (hmissing : g.baseFeePerGas = none)
    {fee : UInt64} (hfee : h.baseFeePerGas = some fee)
    (htail : g.feeString ++ g.withdrawalsString = h.feeString ++ h.withdrawalsString) :
    Confused g h := by
  cases hroot : g.withdrawalsRoot with
  | none => simp [feeString, withdrawalsString, hmissing, hfee, hroot] at htail
  | some root =>
    cases hroot' : h.withdrawalsRoot with
    | none => simp [feeString, withdrawalsString, hmissing, hfee, hroot, hroot'] at htail
    | some root' =>
      simp only [feeString, withdrawalsString, hmissing, hfee, hroot, hroot', List.cons_append,
        List.nil_append, Option.map_some, Option.toList_some, List.cons.injEq, and_true] at htail
      have hzero : fee = 0 :=
        UInt64.toNat_inj.mp (minimalBE_eq_nil_iff.mp htail.1.symm)
      have hsame : root = root' := FixedBytes.ext_toList htail.2
      refine ⟨by rw [hroot]; rfl, hmissing, ext_bare hbare.symm ?_ ?_⟩
      · rw [hfee, hzero]
      · rw [hroot', ← hsame, ← hroot]

/-- Without base fees the strings behind the nonce tell the roots over the withdrawals. -/
theorem withdrawalsRoot_eq_of_missing (hg : g.baseFeePerGas = none) (hh : h.baseFeePerGas = none)
    (htail : g.feeString ++ g.withdrawalsString = h.feeString ++ h.withdrawalsString) :
    g.withdrawalsRoot = h.withdrawalsRoot := by
  unfold feeString withdrawalsString at htail
  rw [hg, hh] at htail
  cases hroot : g.withdrawalsRoot with
  | none => cases hroot' : h.withdrawalsRoot with
    | none => rfl
    | some root' => simp [hroot, hroot'] at htail
  | some root => cases hroot' : h.withdrawalsRoot with
    | none => simp [hroot, hroot'] at htail
    | some root' =>
      have hsame : root.toList = root'.toList := by simpa [hroot, hroot'] using htail
      rw [FixedBytes.ext_toList hsame]

/-- **Only such headers are confused.** -/
theorem eq_or_confused_of_encode (heq : g.encode = h.encode) :
    g = h ∨ Confused g h ∨ Confused h g := by
  obtain ⟨hbare, htail⟩ := bare_eq_of_strings (strings_eq_of_encode heq)
  cases hg : g.baseFeePerGas with
  | none =>
    cases hh : h.baseFeePerGas with
    | none =>
      have hroot := withdrawalsRoot_eq_of_missing hg hh htail
      exact .inl (ext_bare hbare (hg.trans hh.symm) hroot)
    | some fee => exact .inr (.inl (confused_of_missing hbare hg hh htail))
  | some fee =>
    cases hh : h.baseFeePerGas with
    | none => exact .inr (.inr (confused_of_missing hbare.symm hh hg htail.symm))
    | some fee' =>
      have hsome {o : Option UInt64} {n : UInt64} (ho : o = some n) : o.isSome := by rw [ho]; rfl
      obtain ⟨hfee, hroot⟩ := feeString_append_injective (hsome hg) (hsome hh) htail
      exact .inl (ext_bare hbare hfee hroot)

/-- **Which headers share their binary form is known exactly**: only a base fee that is missing in
one of them and zero in the other, in front of one root over withdrawals, does not show. So if the
hash does not collide on two headers that have a base fee, it tells them apart, and the header of a
payload always has one. -/
theorem binary_form_shared_iff :
    (∀ g h : Header, g.encode = h.encode ↔ g = h ∨ Confused g h ∨ Confused h g) ∧
      (∀ g h : Header, (keccak256 g.encode = keccak256 h.encode → g.encode = h.encode) →
        g.baseFeePerGas.isSome → h.baseFeePerGas.isSome → (g.hash = h.hash ↔ g = h)) ∧
      ∀ p : Payload, p.header.baseFeePerGas.isSome := by
  refine ⟨fun g h => ⟨eq_or_confused_of_encode, ?_⟩, fun g h hkeccak hg hh => ?_, fun _ => rfl⟩
  · rintro (rfl | hconfused | hconfused)
    · rfl
    · exact hconfused.encode_eq
    · exact hconfused.encode_eq.symm
  · refine ⟨fun hhash => ?_, congrArg hash⟩
    rcases eq_or_confused_of_encode (hkeccak hhash) with heq | hconfused | hconfused
    · exact heq
    · rw [hconfused.missing] at hg
      cases hg
    · rw [hconfused.missing] at hh
      cases hh

/-- A header whose base fee is missing in front of a root over withdrawals. -/
def unpriced : Header := { blank with withdrawalsRoot := some (.zero 32) }

/-- A header whose base fee is zero in front of a root over withdrawals. -/
def free : Header := { unpriced with baseFeePerGas := some 0 }

/-- The free header as it arrives in a payload, with free bytes or without. -/
def freePayload (extraData : Option Bytes) : Payload :=
  { Payload.ofBlock ⟨⟨free, .zero 32⟩, [], none⟩ with extraData }

/-- A missing fee is confused with one of zero. Payloads without free bytes and with empty ones have
one hash, and so one header. -/
theorem binary_form_shared_iff_free :
    unpriced.encode = free.encode ∧ unpriced ≠ free ∧
      (freePayload none).header = (freePayload (some [])).header := by
  refine ⟨(binary_form_shared_iff.1 unpriced free).mpr (.inr (.inl ⟨rfl, rfl, rfl⟩)), nofun, ?_⟩
  exact (binary_form_shared_iff.2.1 _ _ (fun _ => rfl)
    (binary_form_shared_iff.2.2 _) (binary_form_shared_iff.2.2 _)).mp rfl

end ExecutionNode.Header
