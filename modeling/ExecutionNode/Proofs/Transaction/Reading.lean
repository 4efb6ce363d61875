import ExecutionNode.Proofs.Rlp.Canonical
import ExecutionNode.Transaction.Rlp

/-!
# Transactions are read from one form only

Each reader of a part of a transaction takes exactly the encoding of its tree, field by field.  Put
together: a signed transaction is read from its own encoding and nothing else, and what follows has
no part in it.

* `ofLegacyMark?_eq_some_iff`: the number in a legacy signature tells one curve point and chain.
* `reads_legacy?`, `reads_withAccessList?`, `reads_dynamicFee?`, `reads_blob?`, `reads_setCode?`:
  the five forms.
* `blobs?_eq_some_iff`: whether blobs travel with a transaction shows in its first field, since the
  number of a chain is not a list.
* `Signed.decode?_eq_some_iff`: what is read is the encoding of what it is read as.

A record is read by its fields one after the other (`ReadsFields.cons`).  When the last one is
read, the record is the only one with these fields (`ReadsFields.pure`).
-/

namespace ExecutionNode.Transaction

open Rlp

/-! ### Parts -/

theorem reads_recipient? : Reads recipient? recipientItem := by
  intro input value rest
  rw [recipient?, bind_eq_some_iff]
  constructor
  · rintro ⟨octets, after, hread, h⟩
    rw [string?_eq_some_iff] at hread
    split at h
    next hempty =>
      obtain ⟨rfl, rfl⟩ := pure_eq_some_iff.mp h
      rw [List.isEmpty_iff.mp hempty] at hread
      rwa [recipientItem, Item.fits_str, Item.encode_str]
    next =>
      cases hlength : FixedBytes.ofList? 20 octets with
      | none => simp [hlength, failure_ne_some] at h
      | some found =>
        simp only [hlength, pure_eq_some_iff] at h
        obtain ⟨rfl, rfl⟩ := h
        rwa [recipientItem, Item.fits_str, Item.encode_str, FixedBytes.toList_of_ofList? hlength]
  · intro h
    cases value with
    | none => exact ⟨[], rest, string?_eq_some_iff.mpr h, rfl⟩
    | some a =>
      have hempty : a.toList.isEmpty = false := by
        rw [List.isEmpty_eq_false_iff, ← List.length_pos_iff, a.length_toList]
        decide
      refine ⟨a.toList, rest, string?_eq_some_iff.mpr h, ?_⟩
      rw [hempty, FixedBytes.ofList?_toList]
      rfl

/-- The mark of a legacy signature is short. -/
theorem natSize_legacyMark_le (chainId : Option UInt64) (yParity : Bool) :
    natSize (legacyMark chainId yParity) ≤ 16 := by
  have hparity := Bool.toNat_lt yParity
  rw [natSize_le_iff, show Nat.pow 256 16 = 340282366920938463463374607431768211456 from rfl]
  cases chainId with
  | none =>
    rw [legacyMark]
    omega
  | some chain =>
    have hchain := chain.toNat_lt
    rw [legacyMark]
    omega

/-- A mark tells one curve point and chain. -/
theorem ofLegacyMark?_eq_some_iff {v : Nat} {chainId : Option UInt64} {yParity : Bool} :
    ofLegacyMark? v = some (chainId, yParity) ↔ legacyMark chainId yParity = v := by
  have hparity := Bool.toNat_lt yParity
  constructor
  · intro h
    unfold ofLegacyMark? at h
    split at h
    next hv =>
      cases h
      exact hv.symm
    next =>
      split at h
      next hv =>
        cases h
        exact hv.symm
      next =>
        split at h
        next hv =>
          simp only [Option.some.injEq, Prod.mk.injEq] at h
          obtain ⟨rfl, rfl⟩ := h
          rw [legacyMark, UInt64.toNat_ofNat_of_lt' hv.2]
          rcases Nat.mod_two_eq_zero_or_one (v - 35) with heven | hodd
          · simp only [heven, Nat.zero_ne_one, decide_false, Bool.toNat_false]
            omega
          · simp only [hodd, decide_true, Bool.toNat_true]
            omega
        next => cases h
  · rintro rfl
    cases chainId with
    | none => cases yParity <;> rfl
    | some chain =>
      have hchain : chain.toNat < UInt64.size := chain.toNat_lt
      have hdiv : (35 + 2 * chain.toNat + yParity.toNat - 35) / 2 = chain.toNat := by omega
      have hmod : (35 + 2 * chain.toNat + yParity.toNat - 35) % 2 = yParity.toNat := by omega
      rw [ofLegacyMark?, legacyMark, if_neg (by omega), if_neg (by omega), hdiv, hmod,
        if_pos ⟨by omega, hchain⟩, UInt64.ofNat_toNat]
      cases yParity <;> rfl

theorem reads_access? : Reads access? accessItem := by
  refine Reads.listOf (ReadsFields.exactly ?_)
  refine .cons (reads_fixed? 20) fun address => ?_
  refine .cons (reads_fixed? 32).listOf fun storageKeys => ?_
  refine .pure fun other => ⟨?_, fun h => by simp [← h]⟩
  rintro ⟨rfl, rfl, -⟩
  rfl

theorem readsFields_signature? : ReadsFields (fun _ => True) signature? signatureItems := by
  refine .cons reads_bool? fun yParity => ?_
  refine .cons reads_uint256? fun r => ?_
  refine .cons reads_uint256? fun s => ?_
  refine .pure fun other => ⟨?_, fun h => by simp [← h]⟩
  rintro ⟨rfl, rfl, rfl, -⟩
  rfl

theorem reads_authorization? :
    Reads authorization? fun a => .list [.nat a.chainId.toNat, .str a.address.toList,
      .nat a.nonce.toNat, .nat a.yParity.toNat, .nat a.r.toNat, .nat a.s.toNat] := by
  refine ReadsFields.exactly ?_
  refine .cons reads_uint64? fun chainId => ?_
  refine .cons (reads_fixed? 20) fun address => ?_
  refine .cons reads_uint64? fun nonce => ?_
  refine .cons reads_uint8? fun yParity => ?_
  refine .cons reads_uint256? fun r => ?_
  refine .cons reads_uint256? fun s => ?_
  refine .pure fun other => ⟨?_, fun h => by simp [← h]⟩
  rintro ⟨rfl, rfl, rfl, rfl, rfl, rfl, -⟩
  rfl

/-! ### The kinds -/

theorem reads_legacy? : Reads legacy? Legacy.toItem := by
  refine ReadsFields.exactly ?_
  refine .cons reads_uint64? fun nonce => ?_
  refine .cons reads_uint128? fun gasPrice => ?_
  refine .cons reads_uint64? fun gasLimit => ?_
  refine .cons reads_recipient? fun recipient => ?_
  refine .cons reads_uint256? fun value => ?_
  refine .cons reads_string? fun data => ?_
  refine .append (readsFields_nat? (by decide)) (fun t _ => natSize_legacyMark_le ..) fun v => ?_
  refine .cons reads_uint256? fun r => ?_
  refine .cons reads_uint256? fun s => ?_
  cases hmark : ofLegacyMark? v with
  | none =>
    refine .failure fun other => ?_
    rintro ⟨-, -, hv, -⟩
    rw [ofLegacyMark?_eq_some_iff.mpr hv] at hmark
    cases hmark
  | some told =>
    have hv := ofLegacyMark?_eq_some_iff.mp hmark
    refine .pure fun other => ⟨?_, fun h => by simp [← h, hv]⟩
    rintro ⟨rfl, rfl, htold, rfl, rfl, rfl, rfl, rfl, rfl, -⟩
    rw [ofLegacyMark?_eq_some_iff.mpr htold] at hmark
    cases hmark
    rfl

theorem reads_withAccessList? : Reads withAccessList? WithAccessList.toItem := by
  refine ReadsFields.exactly ?_
  refine .cons reads_uint64? fun chainId => ?_
  refine .cons reads_uint64? fun nonce => ?_
  refine .cons reads_uint128? fun gasPrice => ?_
  refine .cons reads_uint64? fun gasLimit => ?_
  refine .cons reads_recipient? fun recipient => ?_
  refine .cons reads_uint256? fun value => ?_
  refine .cons reads_string? fun data => ?_
  refine .cons reads_access? fun accessList => ?_
  refine .append readsFields_signature? (fun _ _ => trivial) fun signature => ?_
  refine .pure fun other => ⟨?_, fun h => by simp [← h]⟩
  rintro ⟨rfl, rfl, rfl, rfl, rfl, rfl, rfl, rfl, rfl, -⟩
  rfl

theorem reads_dynamicFee? : Reads dynamicFee? DynamicFee.toItem := by
  refine ReadsFields.exactly ?_
  refine .cons reads_uint64? fun chainId => ?_
  refine .cons reads_uint64? fun nonce => ?_
  refine .cons reads_uint128? fun tip => ?_
  refine .cons reads_uint128? fun maxFee => ?_
  refine .cons reads_uint64? fun gasLimit => ?_
  refine .cons reads_recipient? fun recipient => ?_
  refine .cons reads_uint256? fun value => ?_
  refine .cons reads_string? fun data => ?_
  refine .cons reads_access? fun accessList => ?_
  refine .append readsFields_signature? (fun _ _ => trivial) fun signature => ?_
  refine .pure fun other => ⟨?_, fun h => by simp [← h]⟩
  rintro ⟨rfl, rfl, rfl, rfl, rfl, rfl, rfl, rfl, rfl, rfl, -⟩
  rfl

theorem reads_blob? : Reads blob? Blob.toItem := by
  refine ReadsFields.exactly ?_
  refine .cons reads_uint64? fun chainId => ?_
  refine .cons reads_uint64? fun nonce => ?_
  refine .cons reads_uint128? fun tip => ?_
  refine .cons reads_uint128? fun maxFee => ?_
  refine .cons reads_uint64? fun gasLimit => ?_
  refine .cons (reads_fixed? 20) fun recipient => ?_
  refine .cons reads_uint256? fun value => ?_
  refine .cons reads_string? fun data => ?_
  refine .cons reads_access? fun accessList => ?_
  refine .cons reads_uint128? fun maxFeePerBlobGas => ?_
  refine .cons (reads_fixed? 32).listOf fun blobHashes => ?_
  refine .append readsFields_signature? (fun _ _ => trivial) fun signature => ?_
  refine .pure fun other => ⟨?_, fun h => by simp [← h]⟩
  rintro ⟨rfl, rfl, rfl, rfl, rfl, rfl, rfl, rfl, rfl, rfl, rfl, rfl, -⟩
  rfl

theorem reads_blobWithSidecar? :
    Reads blobWithSidecar? fun t => .list (t.1.toItem :: t.2.items) := by
  refine ReadsFields.exactly ?_
  refine .cons reads_blob? fun tx => ?_
  refine .cons (reads_fixed? 131072).listOf fun blobs => ?_
  refine .cons (reads_fixed? 48).listOf fun commitments => ?_
  refine .cons (reads_fixed? 48).listOf fun proofs => ?_
  refine .pure fun other => ⟨?_, fun h => by simp [← h]⟩
  rintro ⟨rfl, rfl, rfl, rfl, -⟩
  rfl

theorem reads_setCode? : Reads setCode? SetCode.toItem := by
  refine ReadsFields.exactly ?_
  refine .cons reads_uint64? fun chainId => ?_
  refine .cons reads_uint64? fun nonce => ?_
  refine .cons reads_uint128? fun tip => ?_
  refine .cons reads_uint128? fun maxFee => ?_
  refine .cons reads_uint64? fun gasLimit => ?_
  refine .cons (reads_fixed? 20) fun recipient => ?_
  refine .cons reads_uint256? fun value => ?_
  refine .cons reads_string? fun data => ?_
  refine .cons reads_access? fun accessList => ?_
  refine .cons reads_authorization?.listOf fun authorizations => ?_
  refine .append readsFields_signature? (fun _ _ => trivial) fun signature => ?_
  refine .pure fun other => ⟨?_, fun h => by simp [← h]⟩
  rintro ⟨rfl, rfl, rfl, rfl, rfl, rfl, rfl, rfl, rfl, rfl, rfl, -⟩
  rfl

/-! ### With blobs or without -/

/-- What stands first in a list tells whether it is a list itself. -/
theorem startsWithList_encode {items : List Item} (h : (Item.list items).Fits) (rest : Bytes) :
    startsWithList ((Item.list items).encode ++ rest) =
      (listHeader (Item.encodeAll items ++ rest)).isSome := by
  simp only [startsWithList, StateT.run, listHeader_list h, Option.bind_some]
  cases listHeader (Item.encodeAll items ++ rest) <;> rfl

/-- A transaction without its blobs starts with the number of its chain. -/
theorem startsWithList_blob {tx : Blob} (h : tx.toItem.Fits) (rest : Bytes) :
    startsWithList (tx.toItem.encode ++ rest) = false := by
  rw [Blob.toItem, List.cons_append] at h ⊢
  have hchain := Item.fits_of_mem h List.mem_cons_self
  rw [startsWithList_encode h, Item.encodeAll_cons, List.append_assoc, Item.nat,
    listHeader_str hchain]
  rfl

/-- A transaction with its blobs starts with the transaction. -/
theorem startsWithList_sidecar {tx : Blob} {sidecar : Sidecar}
    (h : (Item.list (tx.toItem :: sidecar.items)).Fits) (rest : Bytes) :
    startsWithList ((Item.list (tx.toItem :: sidecar.items)).encode ++ rest) = true := by
  have htx : tx.toItem.Fits := Item.fits_of_mem h List.mem_cons_self
  rw [startsWithList_encode h, Item.encodeAll_cons, List.append_assoc]
  rw [Blob.toItem] at htx ⊢
  rw [listHeader_list htx]
  rfl

namespace Signed

/-- A transaction as a tree. Blobs that travel with it stand behind it. -/
def toItem : Signed → Item
  | .legacy tx => tx.toItem
  | .accessList tx => tx.toItem
  | .dynamicFee tx => tx.toItem
  | .blob tx none => tx.toItem
  | .blob tx (some sidecar) => .list (tx.toItem :: sidecar.items)
  | .setCode tx => tx.toItem

/-- What stands in front of the tree. -/
def typeOctets : Signed → Bytes
  | .legacy _ => []
  | signed => [signed.number]

theorem encode_eq (signed : Signed) :
    signed.encode = signed.typeOctets ++ signed.toItem.encode := by
  cases signed with
  | blob tx sidecar => cases sidecar <;> rfl
  | _ => rfl

end Signed

/-- **A transaction with blobs or without is read from its tree only.** -/
theorem blobs?_eq_some_iff {input rest : Bytes} {signed : Signed} :
    blobs? input = some (signed, rest) ↔
      (∃ tx sidecar, signed = .blob tx sidecar) ∧ signed.toItem.Fits ∧
        input = signed.toItem.encode ++ rest := by
  constructor
  · intro h
    unfold blobs? at h
    split at h
    next =>
      obtain ⟨⟨tx, sidecar⟩, after, hread, h⟩ := bind_eq_some_iff.mp h
      obtain ⟨rfl, rfl⟩ := pure_eq_some_iff.mp h
      have htaken := (reads_blobWithSidecar? _ _ _).mp hread
      exact ⟨⟨tx, _, rfl⟩, htaken⟩
    next =>
      obtain ⟨tx, hread, rfl⟩ := map_eq_some_iff.mp h
      have htaken := (reads_blob? _ _ _).mp hread
      exact ⟨⟨tx, _, rfl⟩, htaken⟩
  · rintro ⟨⟨tx, sidecar, rfl⟩, hfits, rfl⟩
    cases sidecar with
    | none =>
      rw [Signed.toItem] at hfits ⊢
      rw [blobs?, startsWithList_blob hfits]
      exact map_eq_some_iff.mpr ⟨tx, reads_blob?.encode hfits rest, rfl⟩
    | some sidecar =>
      rw [Signed.toItem] at hfits ⊢
      have hread : blobWithSidecar? ((Item.list (tx.toItem :: sidecar.items)).encode ++ rest) =
          some ((tx, sidecar), rest) := (reads_blobWithSidecar? _ _ _).mpr ⟨hfits, rfl⟩
      rw [blobs?, if_pos (startsWithList_sidecar hfits rest)]
      exact bind_eq_some_iff.mpr ⟨_, _, hread, rfl⟩

/-! ### All transactions -/

/-- An octet that is no type number begins a legacy transaction. -/
theorem Signed.decode?_of_le {b : UInt8} (h : 0x80 ≤ b.toNat) (input : Bytes) :
    Signed.decode? (b :: input) = (Signed.legacy <$> legacy?) (b :: input) := by
  have hne {n : UInt8} (hn : n.toNat < 0x80) : ¬ b = n := fun heq => by
    rw [heq] at h
    omega
  rw [Signed.decode?, if_neg (hne (by decide)), if_neg (hne (by decide)), if_neg (hne (by decide)),
    if_neg (hne (by decide)), if_neg (by rw [UInt8.lt_iff_toNat_lt]; exact Nat.not_lt_of_le h)]
  rfl

/-- **A transaction is read exactly from its encoding**, whatever follows it. -/
theorem Signed.decode?_eq_some_iff {input rest : Bytes} {signed : Signed} :
    Signed.decode? input = some (signed, rest) ↔
      signed.toItem.Fits ∧ input = signed.encode ++ rest := by
  rw [encode_eq, List.append_assoc]
  constructor
  · intro h
    unfold Signed.decode? at h
    split at h
    next => cases h
    next b input =>
      split at h
      next hb =>
        obtain ⟨tx, hread, rfl⟩ := map_eq_some_iff.mp h
        have htaken := (reads_withAccessList? _ _ _).mp hread
        exact ⟨htaken.1, by rw [hb, htaken.2]; rfl⟩
      next =>
      split at h
      next hb =>
        obtain ⟨tx, hread, rfl⟩ := map_eq_some_iff.mp h
        have htaken := (reads_dynamicFee? _ _ _).mp hread
        exact ⟨htaken.1, by rw [hb, htaken.2]; rfl⟩
      next =>
      split at h
      next hb =>
        obtain ⟨⟨tx, sidecar, rfl⟩, hfits, rfl⟩ := blobs?_eq_some_iff.mp h
        exact ⟨hfits, by rw [hb]; rfl⟩
      next =>
      split at h
      next hb =>
        obtain ⟨tx, hread, rfl⟩ := map_eq_some_iff.mp h
        have htaken := (reads_setCode? _ _ _).mp hread
        exact ⟨htaken.1, by rw [hb, htaken.2]; rfl⟩
      next =>
      split at h
      next => cases h
      next =>
        obtain ⟨tx, hread, rfl⟩ := map_eq_some_iff.mp h
        exact (reads_legacy? _ _ _).mp hread
  · rintro ⟨hfits, rfl⟩
    cases signed with
    | legacy tx =>
      have hread := reads_legacy?.encode hfits rest
      obtain ⟨b, tail, hfirst, hb⟩ := exists_cons_list hfits
      rw [typeOctets, List.nil_append, toItem, Legacy.toItem, hfirst, List.cons_append,
        decode?_of_le (by omega)]
      rw [Legacy.toItem, hfirst, List.cons_append] at hread
      exact map_eq_some_iff.mpr ⟨tx, hread, rfl⟩
    | accessList tx => exact map_eq_some_iff.mpr ⟨tx, reads_withAccessList?.encode hfits rest, rfl⟩
    | dynamicFee tx => exact map_eq_some_iff.mpr ⟨tx, reads_dynamicFee?.encode hfits rest, rfl⟩
    | blob tx sidecar => exact blobs?_eq_some_iff.mpr ⟨⟨tx, sidecar, rfl⟩, hfits, rfl⟩
    | setCode tx => exact map_eq_some_iff.mpr ⟨tx, reads_setCode?.encode hfits rest, rfl⟩

end ExecutionNode.Transaction
