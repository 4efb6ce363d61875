import ExecutionNode.Proofs.Keccak.Rows
import ExecutionNode.Proofs.Transaction.Reading
import ExecutionNode.Transaction.Envelope

/-!
# Which bytes are a transaction of a block

Bytes are accepted exactly if they are the canonical encoding of one signed transaction of a kind
that a block may hold.  They are then what a block must hold of the transaction, under its hash,
with one exception: a transaction that commits to blobs is also accepted together with the blobs,
as it travels outside of blocks, and then neither the bytes nor the hash are its own.

Whatever follows accepted bytes is reported, so that no accepted bytes begin other accepted bytes.

* `Envelope.decode_eq_ok_iff`: accepted bytes are the encoding of a signed transaction.
* `Envelope.decode_eq_ok_iff_holds`: they are what a block must hold, or blobs travel with it.
* `Envelope.blobs_are_accepted`: they are accepted where none may be.
* `Envelope.accepted_bytes_end`: what follows accepted bytes is never part of them.
-/

namespace ExecutionNode.Transaction

open Rlp

/-! ### The canonical encoding -/

namespace Signed

/-- The blobs that travel with a transaction. -/
def sidecar? : Signed → Option Sidecar
  | .blob _ sidecar => sidecar
  | _ => none

/-- The type number of a transaction, if it is not a legacy one, and the defined encoding of its
tree. -/
def canonical (signed : Signed) : Bytes := signed.typeOctets ++ signed.toItem.canonical

theorem encode_eq_canonical (signed : Signed) : signed.encode = signed.canonical := by
  rw [encode_eq, canonical, Item.encode_eq_canonical]

theorem canonical_ne_nil (signed : Signed) : signed.canonical ≠ [] := by
  rw [← encode_eq_canonical, encode_eq]
  exact List.append_ne_nil_of_right_ne_nil _ signed.toItem.encode_ne_nil

/-- A canonical encoding is read, and it ends where the transaction ends. -/
theorem decode?_canonical {signed : Signed} (h : signed.toItem.Fits) (rest : Bytes) :
    Signed.decode? (signed.canonical ++ rest) = some (signed, rest) :=
  decode?_eq_some_iff.mpr ⟨h, by rw [encode_eq_canonical]⟩

/-- **Two transactions with one encoding are the same.** -/
theorem canonical_injective {s t : Signed} (hs : s.toItem.Fits) (ht : t.toItem.Fits)
    (h : s.canonical = t.canonical) : s = t := by
  have hread := decode?_canonical hs []
  rw [h, decode?_canonical ht []] at hread
  exact (Prod.mk.inj (Option.some.inj hread)).1.symm

end Signed

namespace Envelope

variable {raw : Bytes} {tx : Envelope} {signed : Signed}

/-! ### Accepted bytes -/

/-- The bytes are the canonical encoding of a transaction of that kind, and the hash is theirs. -/
structure Encloses (tx : Envelope) (signed : Signed) : Prop where
  /-- A block may hold transactions of this type. -/
  kind : Kind.ofNumber? signed.number = some tx.kind
  /-- The length of the transaction can be announced. -/
  fits : signed.toItem.Fits
  /-- The bytes are its encoding. -/
  raw : tx.raw = signed.canonical
  /-- The hash is that of its encoding. -/
  hash : tx.hash = keccak256 signed.canonical

/-- There is only one such transaction. -/
theorem Encloses.unique {other : Signed} (h : tx.Encloses signed) (hother : tx.Encloses other) :
    signed = other :=
  Signed.canonical_injective h.fits hother.fits (h.raw.symm.trans hother.raw)

/-- How a transaction in front of some bytes is answered. -/
theorem decode_canonical (hfits : signed.toItem.Fits) (rest : Bytes) :
    decode (signed.canonical ++ rest) =
      if rest.isEmpty then
        match Kind.ofType signed.number with
        | .error e => .error e
        | .ok kind => .ok ⟨kind, keccak256 (signed.canonical ++ rest), signed.canonical ++ rest⟩
      else .error (.trailingBytes rest.length) := by
  have hne : (signed.canonical ++ rest).isEmpty = false := by
    rw [List.isEmpty_eq_false_iff]
    exact List.append_ne_nil_of_left_ne_nil signed.canonical_ne_nil _
  simp only [decode, hne, StateT.run, Signed.decode?_canonical hfits rest]
  rfl

/-- **Accepted bytes are the encoding of a signed transaction**, and all of them are accepted. -/
theorem decode_eq_ok_iff : decode raw = .ok tx ↔ tx.raw = raw ∧ ∃ signed, tx.Encloses signed := by
  constructor
  · intro h
    unfold decode at h
    split at h
    next => cases h
    next =>
      cases hread : Signed.decode?.run raw with
      | none => simp [hread] at h
      | some read =>
        obtain ⟨signed, left⟩ := read
        obtain ⟨hfits, hraw⟩ := Signed.decode?_eq_some_iff.mp hread
        simp only [hread] at h
        split at h
        next hend =>
          rw [List.isEmpty_iff.mp hend, List.append_nil, Signed.encode_eq_canonical] at hraw
          cases hkind : Kind.ofNumber? signed.number with
          | none => simp [Kind.ofType, hkind] at h
          | some kind =>
            simp only [Kind.ofType, hkind] at h
            cases h
            exact ⟨rfl, signed, hkind, hfits, hraw, by rw [hraw]⟩
        next => cases h
  · rintro ⟨rfl, signed, henclosed⟩
    have hanswer := decode_canonical henclosed.fits []
    rw [List.append_nil, Kind.ofType, henclosed.kind] at hanswer
    rw [henclosed.raw, hanswer]
    cases tx with
    | mk kind hash raw =>
      cases henclosed.raw
      cases henclosed.hash
      rfl

/-! ### What a block must hold -/

/-- The bytes are what a block must hold of a transaction, and the hash is the transaction's: no
blobs travel with it. -/
structure Holds (tx : Envelope) (signed : Signed) : Prop extends tx.Encloses signed where
  /-- There are no blobs. -/
  alone : signed.sidecar? = none

/-- A transaction that the bytes are the encoding of is one that a block must hold them of, or blobs
travel with it. -/
theorem Encloses.holds_or_blobs (h : tx.Encloses signed) :
    tx.Holds signed ∨ ∃ blob sidecar, tx.Encloses (.blob blob (some sidecar)) := by
  cases hsidecar : signed.sidecar? with
  | none => exact .inl ⟨h, hsidecar⟩
  | some sidecar =>
    cases signed with
    | blob blob carried =>
      obtain rfl : carried = some sidecar := hsidecar
      exact .inr ⟨blob, sidecar, h⟩
    | _ => cases hsidecar

/-- **Accepted bytes are what a block must hold of a transaction**, and all these are accepted, but
besides them also a transaction that commits to blobs together with the blobs. Bytes that a block
must hold of a transaction are the encoding of no other one, with blobs or without. -/
theorem decode_eq_ok_iff_holds :
    (decode raw = .ok tx ↔ tx.raw = raw ∧
      ((∃ signed, tx.Holds signed) ∨
        ∃ blob sidecar, tx.Encloses (.blob blob (some sidecar)))) ∧
      ∀ signed other, tx.Holds signed → tx.Encloses other → other = signed := by
  refine ⟨?_, fun signed other hholds hother => hother.unique hholds.toEncloses⟩
  rw [decode_eq_ok_iff]
  refine and_congr_right fun _ => ⟨?_, ?_⟩
  · rintro ⟨signed, henclosed⟩
    exact henclosed.holds_or_blobs.imp_left fun hholds => ⟨signed, hholds⟩
  · rintro (⟨signed, hholds⟩ | ⟨blob, sidecar, henclosed⟩)
    · exact ⟨signed, hholds.toEncloses⟩
    · exact ⟨_, henclosed⟩

/-! ### Blobs that travel with a transaction -/

/-- A transaction that commits to one blob. -/
def commitment : Blob where
  chainId := 1
  nonce := 1
  tip := 1
  maxFee := 10000000000
  gasLimit := 21000
  recipient := ⟨List.replicate 19 0 ++ [0x42], rfl⟩
  value := 5
  data := []
  accessList := []
  maxFeePerBlobGas := 3
  blobHashes := [⟨List.replicate 31 0 ++ [7], rfl⟩]
  signature := ⟨true, 11, 12⟩

/-- The transaction with a commitment as a block must hold it. -/
def committed : Envelope :=
  let raw := (Signed.blob commitment none).canonical
  ⟨.blob, keccak256 raw, raw⟩

theorem holds_committed : committed.Holds (.blob commitment none) where
  kind := rfl
  fits := Item.fits_of_length_lt (by decide +kernel)
  raw := rfl
  hash := rfl
  alone := rfl

/-- What a block must hold is accepted, and its bytes are not the encoding of the transaction with
blobs. -/
theorem decode_eq_ok_iff_holds_committed :
    decode (Signed.blob commitment none).canonical = .ok committed ∧
      ¬ committed.Encloses (.blob commitment (some ⟨[], [], []⟩)) := by
  have hspec := @decode_eq_ok_iff_holds (Signed.blob commitment none).canonical committed
  refine ⟨hspec.1.mpr ⟨rfl, .inl ⟨_, holds_committed⟩⟩, fun hblobs => ?_⟩
  cases hspec.2 _ _ holds_committed hblobs

/-- The octets of that transaction as it travels outside of blocks, with three empty lists for the
blobs, their commitments and the proofs. -/
def travelling : Bytes :=
  [0x03, 0xf8, 0x4f, 0xf8, 0x4a, 0x01, 0x01, 0x01, 0x85, 0x02, 0x54, 0x0b, 0xe4, 0x00, 0x82, 0x52,
    0x08, 0x94, 0x00, 0x00, 0x00, 0x00, 0x00, 0x00, 0x00, 0x00, 0x00, 0x00, 0x00, 0x00, 0x00, 0x00,
    0x00, 0x00, 0x00, 0x00, 0x00, 0x42, 0x05, 0x80, 0xc0, 0x03, 0xe1, 0xa0, 0x00, 0x00, 0x00, 0x00,
    0x00, 0x00, 0x00, 0x00, 0x00, 0x00, 0x00, 0x00, 0x00, 0x00, 0x00, 0x00, 0x00, 0x00, 0x00, 0x00,
    0x00, 0x00, 0x00, 0x00, 0x00, 0x00, 0x00, 0x00, 0x00, 0x00, 0x00, 0x07, 0x01, 0x0b, 0x0c, 0xc0,
    0xc0, 0xc0]

/-- The octets that travel are the encoding of the transaction with its blobs. -/
theorem encode_travelling :
    (Signed.blob commitment (some ⟨[], [], []⟩)).encode = travelling := by
  decide +kernel

/-- What they are accepted as. -/
def travellingEnvelope : Envelope := ⟨.blob, keccak256 travelling, travelling⟩

theorem encloses_travelling :
    travellingEnvelope.Encloses (.blob commitment (some ⟨[], [], []⟩)) where
  kind := rfl
  fits := Item.fits_of_length_lt (by decide +kernel)
  raw := by rw [← Signed.encode_eq_canonical, encode_travelling]; rfl
  hash := by rw [← Signed.encode_eq_canonical, encode_travelling]; rfl

/-- **Blobs are accepted where none may be.** The octets are not what a block must hold of any
transaction, and the hash is not that of the transaction in them. -/
theorem blobs_are_accepted :
    decode travelling = .ok travellingEnvelope ∧ (∀ signed, ¬ travellingEnvelope.Holds signed) ∧
      travellingEnvelope.hash ≠ committed.hash := by
  refine ⟨decode_eq_ok_iff.mpr ⟨rfl, _, encloses_travelling⟩, fun signed hholds => ?_, ?_⟩
  · cases encloses_travelling.unique hholds.toEncloses
    cases hholds.alone
  · rw [committed, ← Signed.encode_eq_canonical]
    simp only [travellingEnvelope, keccak256, Keccak.hash, Keccak.absorb_padded]
    decide +kernel

/-! ### What follows accepted bytes -/

/-- The bytes are accepted. -/
def Accepted (raw : Bytes) : Prop := ∃ tx, decode raw = .ok tx

theorem accepted_iff : Accepted raw ↔
    ∃ (signed : Signed) (kind : Kind), Kind.ofNumber? signed.number = some kind ∧
      signed.toItem.Fits ∧ raw = signed.canonical := by
  constructor
  · rintro ⟨tx, h⟩
    obtain ⟨rfl, signed, henclosed⟩ := decode_eq_ok_iff.mp h
    exact ⟨signed, tx.kind, henclosed.kind, henclosed.fits, henclosed.raw⟩
  · rintro ⟨signed, kind, hkind, hfits, rfl⟩
    exact ⟨⟨kind, _, _⟩, decode_eq_ok_iff.mpr ⟨rfl, signed, hkind, hfits, rfl, rfl⟩⟩

/-- Bytes behind accepted ones are reported, and how many they are. -/
theorem Accepted.decode_append (h : Accepted raw) {rest : Bytes} (hrest : rest ≠ []) :
    decode (raw ++ rest) = .error (.trailingBytes rest.length) := by
  obtain ⟨signed, _, -, hfits, rfl⟩ := accepted_iff.mp h
  rw [decode_canonical hfits, if_neg (by simpa using hrest)]

/-- No accepted bytes are empty. -/
theorem Accepted.ne_nil (h : Accepted raw) : raw ≠ [] := by
  obtain ⟨signed, _, -, -, rfl⟩ := accepted_iff.mp h
  exact signed.canonical_ne_nil

/-- **No accepted bytes begin others.** -/
theorem Accepted.eq_of_begins {others : Bytes} (h : Accepted raw) (hothers : Accepted others)
    (hbegins : raw <+: others) : raw = others := by
  obtain ⟨rest, rfl⟩ := hbegins
  by_cases hrest : rest = []
  · rw [hrest, List.append_nil]
  · obtain ⟨tx, htx⟩ := hothers
    rw [h.decode_append hrest] at htx
    cases htx

/-- **Accepted bytes behind each other can be split in one way only.** -/
theorem eq_of_flatten_eq {raws others : List Bytes} (hraws : ∀ raw ∈ raws, Accepted raw)
    (hothers : ∀ raw ∈ others, Accepted raw) (h : raws.flatten = others.flatten) :
    raws = others := by
  induction raws generalizing others with
  | nil =>
    cases others with
    | nil => rfl
    | cons other others =>
      rw [List.forall_mem_cons] at hothers
      simp [hothers.1.ne_nil] at h
  | cons raw raws ih =>
    rw [List.forall_mem_cons] at hraws
    cases others with
    | nil => simp [hraws.1.ne_nil] at h
    | cons other others =>
      rw [List.forall_mem_cons] at hothers
      rw [List.flatten_cons, List.flatten_cons] at h
      -- of the two first ones, one begins the other
      have hsame : raw = other := by
        rcases List.append_eq_append_iff.mp h with ⟨middle, hother, -⟩ | ⟨middle, hraw, -⟩
        · exact hraws.1.eq_of_begins hothers.1 ⟨middle, hother.symm⟩
        · exact (hothers.1.eq_of_begins hraws.1 ⟨middle, hraw.symm⟩).symm
      rw [hsame] at h ⊢
      rw [ih hraws.2 hothers.2 (List.append_cancel_left h)]

/-- **The bytes hold exactly one transaction.** Whatever follows accepted bytes is reported as so
many bytes too many, no accepted bytes begin other accepted bytes, and a row of accepted bytes can
be split in one way only. -/
theorem accepted_bytes_end :
    (∀ raw rest, Accepted raw → rest ≠ [] →
        decode (raw ++ rest) = .error (.trailingBytes rest.length)) ∧
      (∀ raw other, Accepted raw → Accepted other → raw <+: other → raw = other) ∧
      ∀ raws others : List Bytes, (∀ raw ∈ raws, Accepted raw) → (∀ raw ∈ others, Accepted raw) →
        raws.flatten = others.flatten → raws = others :=
  ⟨fun _ _ h hrest => h.decode_append hrest, fun _ _ h hother => h.eq_of_begins hother,
    fun _ _ hraws hothers => eq_of_flatten_eq hraws hothers⟩

/-- The transaction that travels with its blobs is accepted. An octet behind it is reported, and
with that octet or with a copy of itself behind it, it is not accepted. -/
theorem accepted_bytes_end_travelling :
    Accepted travelling ∧ decode (travelling ++ [0]) = .error (.trailingBytes 1) ∧
      ¬ Accepted (travelling ++ [0]) ∧ ¬ Accepted (travelling ++ travelling) := by
  have haccepted : Accepted travelling :=
    ⟨_, decode_eq_ok_iff.mpr ⟨rfl, _, encloses_travelling⟩⟩
  refine ⟨haccepted, accepted_bytes_end.1 _ _ haccepted (List.cons_ne_nil _ _), fun hlonger => ?_,
    fun htwice => ?_⟩
  · have hsame := accepted_bytes_end.2.1 _ _ haccepted hlonger (List.prefix_append _ _)
    exact absurd (congrArg List.length hsame) (by simp)
  · have hsplit : [travelling, travelling] = [travelling ++ travelling] := by
      refine accepted_bytes_end.2.2 _ _ ?_ ?_ (by simp)
      · simp [haccepted]
      · simpa using htwice
    cases hsplit

end Envelope

end ExecutionNode.Transaction
