import ExecutionNode.Proofs.Engine.Permanence

/-!
# Payloads with defects

A payload may be wrong in several ways at once.  `Payload.defects` looks for each of them on its
own and lists them in their order of precedence; the conversion reports the first
(`Payload.toBlock_eq_error_iff`), and the engine answers for that one alone
(`newPayload_of_defect`).

A wrong hash comes before broken transactions and free bytes, and also before everything that the
engine or its surroundings know.  Only a base fee that no header can hold comes before it: such a
payload has no header that could be hashed (`newPayload_of_mismatch`).
-/

namespace ExecutionNode

namespace Payload

variable {p : Payload} {maxExtraData : Nat} {defect : ConversionError}

/-- The base fee does not fit a header. -/
def feeDefect? (p : Payload) : Option ConversionError :=
  if p.baseFeePerGas.toNat < UInt64.size then none else some (.baseFee p.baseFeePerGas)

/-- The declared hash is not the hash of the header. -/
def hashDefect? (p : Payload) : Option ConversionError :=
  if p.header.hash = p.blockHash then none else some (.blockHash p.header.hash p.blockHash)

/-- A transaction is not one. -/
def transactionDefect? (p : Payload) : Option ConversionError :=
  match Transaction.Envelope.decodeAll p.transactions with
  | .error cause => some (.transaction cause)
  | .ok _ => none

/-- The free bytes are missing or too long. -/
def extraDataDefect? (p : Payload) (maxExtraData : Nat) : Option ConversionError :=
  match p.extraData with
  | none => some (.missingField "extraData")
  | some extra =>
    if extra.length > maxExtraData then some (.extraDataTooLarge maxExtraData) else none

/-- Everything that is wrong with a payload, in the order of precedence. -/
def defects (p : Payload) (maxExtraData : Nat) : List ConversionError :=
  [p.feeDefect?, p.hashDefect?, p.transactionDefect?,
    p.extraDataDefect? maxExtraData].filterMap id

/-- **The conversion reports the first defect**, and fails only for a defect. -/
theorem toBlock_eq_error_iff :
    p.toBlock maxExtraData = .error defect ↔ (p.defects maxExtraData).head? = some defect := by
  unfold toBlock defects feeDefect? hashDefect? transactionDefect? extraDataDefect?
  by_cases hfee : p.baseFeePerGas.toNat < UInt64.size
  · rw [if_neg (Nat.not_le.mpr hfee), if_pos hfee]
    by_cases hhash : p.header.hash = p.blockHash
    · dsimp only
      rw [if_neg (not_not_intro hhash), if_pos hhash]
      cases Transaction.Envelope.decodeAll p.transactions with
      | error cause => simp
      | ok transactions =>
        cases p.extraData with
        | none => simp
        | some extra =>
          dsimp only
          split
          · simp
          · simp
    · dsimp only
      rw [if_pos hhash, if_neg hhash]
      simp
  · rw [if_pos (Nat.not_lt.mp hfee), if_neg hfee]
    simp

/-- A base fee that does not fit is the first defect. -/
theorem head?_defects_of_fee (h : UInt64.size ≤ p.baseFeePerGas.toNat) :
    (p.defects maxExtraData).head? = some (.baseFee p.baseFeePerGas) := by
  rw [defects, feeDefect?, if_neg (Nat.not_lt.mpr h)]
  rfl

/-- A wrong hash is the first defect if the base fee fits, whatever else is wrong. -/
theorem head?_defects_of_hash (hfee : p.baseFeePerGas.toNat < UInt64.size)
    (hhash : p.header.hash ≠ p.blockHash) :
    (p.defects maxExtraData).head? = some (.blockHash p.header.hash p.blockHash) := by
  rw [defects, feeDefect?, hashDefect?, if_pos hfee, if_neg hhash]
  rfl

end Payload

namespace Engine

variable {e : Engine} {a : Answers} {p : Payload}

/-- What a defect is answered without asking anyone. -/
def defectStatus : Payload.ConversionError → PayloadStatus
  | .blockHash .. => .invalidBlockHash
  | defect => .invalid none (some defect.message)

/-- The first defect decides the reply. Unless it is a broken transaction, nobody is asked, nothing
is recorded, and the call is noted and counted. -/
theorem newPayload_of_defect {defect : Payload.ConversionError}
    (h : (p.defects e.maxExtraData).head? = some defect)
    (hquiet : ∀ cause, defect ≠ .transaction cause) :
    e.newPayload a p = ⟨.ok (defectStatus defect), e.badBlocks,
      [.signal, .count (.newPayload (defectStatus defect).verdict.name)]⟩ := by
  unfold newPayload judgePayload
  rw [Payload.toBlock_eq_error_iff.mpr h]
  cases defect with
  | transaction cause => exact absurd rfl (hquiet cause)
  | _ => rfl

/-- **A wrong hash is answered before anything else is looked at but the base fee.** Take any
engine, any answers of its surroundings, and any payload whose declared hash is not the hash of its
header.

* If the base fee fits a header, the payload is answered with the verdict for a wrong hash, without
  a latest valid hash, whatever else is wrong with it.
* Otherwise it is answered as invalid with the error text for the base fee, without a latest valid
  hash.

Either way all that is done is to note and to count the call. -/
theorem newPayload_of_mismatch (e : Engine) (a : Answers) {p : Payload}
    (hmismatch : p.header.hash ≠ p.blockHash) :
    (p.baseFeePerGas.toNat < UInt64.size →
      e.newPayload a p = ⟨.ok ⟨.invalidBlockHash, none⟩, e.badBlocks,
        [.signal, .count (.newPayload "INVALID_BLOCK_HASH")]⟩) ∧
    (UInt64.size ≤ p.baseFeePerGas.toNat →
      e.newPayload a p =
        ⟨.ok ⟨.invalid (some s!"invalid base fee per gas: {p.baseFeePerGas.toNat}"), none⟩,
          e.badBlocks, [.signal, .count (.newPayload "INVALID")]⟩) := by
  constructor
  · intro hfee
    rw [newPayload_of_defect (Payload.head?_defects_of_hash hfee hmismatch) (by simp)]
    rfl
  · intro hfee
    rw [newPayload_of_defect (Payload.head?_defects_of_fee hfee) (by simp)]
    rfl

/-! ### A payload with every defect -/

/-- A hash that is not the given one. -/
def otherHash (hash : Hash) : Hash :=
  if hash = .zero 32 then ⟨List.replicate 32 1, List.length_replicate ..⟩ else .zero 32

theorem otherHash_ne (hash : Hash) : otherHash hash ≠ hash := by
  unfold otherHash
  split
  next hzero =>
    rw [hzero]
    decide
  next hzero => exact Ne.symm hzero

/-- A payload with a base fee, a broken transaction, no free bytes, and a hash that is not its
own. -/
def mislabelled (fee : U256) : Payload :=
  let unlabelled := { barePayload 12 with
    baseFeePerGas := fee
    transactions := [[0xde, 0xad]]
    extraData := none }
  { unlabelled with blockHash := otherHash unlabelled.header.hash }

theorem hash_header_mislabelled (fee : U256) :
    (mislabelled fee).header.hash ≠ (mislabelled fee).blockHash :=
  (otherHash_ne _).symm

/-- The hash is what is answered for, though the transactions are broken and the free bytes are
missing, and though the surroundings would condemn the block. -/
theorem newPayload_of_mismatch_of_mislabelled :
    (mislabelled 7).header.hash ≠ (mislabelled 7).blockHash ∧
    (mislabelled 7).transactionDefect?.isSome ∧
    (mislabelled 7).extraDataDefect? 32 = some (.missingField "extraData") ∧
    fresh.newPayload (failing "wrong state root") (mislabelled 7) =
      ⟨.ok ⟨.invalidBlockHash, none⟩, fresh.badBlocks,
        [.signal, .count (.newPayload "INVALID_BLOCK_HASH")]⟩ :=
  ⟨hash_header_mislabelled 7, by decide, rfl,
    (newPayload_of_mismatch fresh (failing "wrong state root") (hash_header_mislabelled 7)).1
      (by decide)⟩

/-- **A wrong hash is not answered for where the base fee is too wide.** -/
theorem wide_fee_hides_mismatch :
    ¬ ∀ (e : Engine) (a : Answers) (p : Payload), p.header.hash ≠ p.blockHash →
      (e.newPayload a p).result = .ok ⟨.invalidBlockHash, none⟩ := by
  intro hclaim
  have hanswered := hclaim fresh (failing "wrong state root")
    (mislabelled (BitVec.ofNat 256 UInt64.size)) (hash_header_mislabelled _)
  have hfee : ((mislabelled (BitVec.ofNat 256 UInt64.size)).defects 32).head? = _ :=
    Payload.head?_defects_of_fee (by decide)
  rw [newPayload_of_defect hfee (by simp)] at hanswered
  cases hanswered

end Engine

end ExecutionNode
