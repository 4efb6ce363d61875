import ExecutionNode.Engine.Api
import ExecutionNode.Proofs.Engine.Defects
import ExecutionNode.Proofs.Keccak.Rows
import ExecutionNode.Proofs.Payload.Commitment

/-!
# Serving built payloads

What is served for a built block may come back as a new payload.  Its declared hash is the one of
the block, so it is right as long as the served fields are those that the header of the block
commits to.

* `TrustsHash`: a reply that does not find the declared hash wrong.  Every payload that declares
  the hash of its own header is replied to in this way (`trustsHash_newPayload`); the stages of
  judging it have one lemma each.
* `served_consistent`: the second version serves the block as it is.  The first version leaves the
  withdrawals out of it, so what it serves carries its own hash if there were none, and a wrong one
  otherwise.
-/

namespace ExecutionNode.Engine

open Payload

variable {e : Engine} {a : Answers} {p : Payload} {b : Block}

/-! ### Replies to a right hash -/

/-- The declared hash is not found wrong. -/
def TrustsHash {ε : Type} (r : Reply ε PayloadStatus) : Prop :=
  ∀ status, r.result = .ok status → status.verdict ≠ .invalidBlockHash

theorem trustsHash_answer {ε : Type} {status : PayloadStatus}
    (h : status.verdict ≠ .invalidBlockHash) : TrustsHash (e.answer status : Reply ε _) := by
  rintro _ ⟨⟩
  exact h

theorem trustsHash_fail {ε : Type} (error : ε) : TrustsHash (e.fail error) := by
  rintro _ ⟨⟩

/-- Questions in front of a reply do not change what it says. -/
theorem TrustsHash.after {ε : Type} {r : Reply ε PayloadStatus} (h : TrustsHash r)
    (calls : List Call) : TrustsHash (r.after calls) := h

theorem trustsHash_reading {α : Type} {read : Except ReadError α}
    {go : α → Reply CallError PayloadStatus} (hgo : ∀ x, TrustsHash (go x)) :
    TrustsHash (e.reading read go) := by
  unfold reading
  split
  · exact trustsHash_fail _
  · exact hgo _

/-- Only a wrong hash is answered as one. -/
theorem trustsHash_malformed {error : ConversionError} (herror : error.isHashMismatch = false)
    (parentHash : Hash) : TrustsHash (e.malformed a parentHash error) := by
  unfold malformed
  split
  · cases herror
  · refine (trustsHash_reading fun ancestor => ?_).after _
    exact trustsHash_answer nofun
  · exact trustsHash_answer nofun

theorem trustsHash_execute (block : Block) (ancestor : Hash) :
    TrustsHash (e.execute a block ancestor) := by
  unfold execute
  refine TrustsHash.after ?_ _
  split
  · exact trustsHash_fail _
  · exact trustsHash_fail _
  · exact trustsHash_answer nofun
  · rintro _ ⟨⟩
    nofun

theorem trustsHash_judge (block : Block) (parent : SealedHeader) (descends : Bool)
    (ancestor : Option Hash) : TrustsHash (e.judge a block parent descends ancestor) := by
  unfold judge
  split
  · exact trustsHash_answer nofun
  · split
    · cases ancestor with
      | none => exact trustsHash_answer nofun
      | some ancestor => exact trustsHash_execute block ancestor
    · rintro _ ⟨⟩
      nofun

theorem trustsHash_resolve (block : Block) (parent : SealedHeader) :
    TrustsHash (e.resolve a block parent) := by
  refine (trustsHash_reading fun descends => ?_).after _
  exact (trustsHash_reading fun ancestor => trustsHash_judge block parent descends ancestor).after _

theorem trustsHash_findParent (block : Block) : TrustsHash (e.findParent a block) := by
  refine (trustsHash_reading fun known => ?_).after _
  cases known with
  | none =>
    refine TrustsHash.after (trustsHash_answer ?_) _
    nofun
  | some parent => exact trustsHash_resolve block parent

theorem trustsHash_admission (block : Block) : TrustsHash (e.admission a block) := by
  refine (trustsHash_reading fun stored => ?_).after _
  cases stored with
  | some _ => exact trustsHash_answer nofun
  | none =>
    refine TrustsHash.after ?_ _
    split
    · exact trustsHash_answer nofun
    · exact trustsHash_findParent block

/-- A record answers for a failed block, not for a hash. -/
theorem verdict_of_status? {r : BadBlocks} {hash : Hash} {status : PayloadStatus}
    (h : r.status? hash = some status) : status.verdict ≠ .invalidBlockHash := by
  obtain ⟨bad, -, rfl⟩ := Option.map_eq_some_iff.mp h
  cases bad.latestValidHash <;> simp [PayloadStatus.invalid]

/-- A payload that declares the hash of its own header has other defects at most. -/
theorem isHashMismatch_of_toBlock {maxExtraData : Nat} {error : ConversionError}
    (hhash : p.header.hash = p.blockHash) (h : p.toBlock maxExtraData = .error error) :
    error.isHashMismatch = false := by
  unfold toBlock at h
  dsimp only at h
  split at h
  · cases h
    rfl
  · rw [if_neg (not_not_intro hhash)] at h
    split at h
    · cases h
      rfl
    · split at h
      · cases h
        rfl
      · split at h
        · cases h
          rfl
        · cases h

theorem trustsHash_judgePayload (hhash : p.header.hash = p.blockHash) :
    TrustsHash (e.judgePayload a p) := by
  unfold judgePayload
  split
  next error herror => exact trustsHash_malformed (isHashMismatch_of_toBlock hhash herror) _
  next block hblock =>
    split
    next status hstatus => exact trustsHash_answer (verdict_of_status? hstatus)
    · exact trustsHash_admission block

/-- Naming the cause of a failure makes no success. -/
theorem mapError_eq_ok_iff {ε ε' α : Type} {x : Except ε α} {f : ε → ε'} {y : α} :
    x.mapError f = .ok y ↔ x = .ok y := by
  cases x <;> simp [Except.mapError]

/-- **A payload that declares the hash of its own header is never told that its hash is wrong**, by
no version, no engine and in no surroundings. -/
theorem trustsHash_newPayload (v : Version) (e : Engine) (a : Answers)
    (hhash : p.header.hash = p.blockHash) : TrustsHash (Api.newPayload v e a p) := by
  unfold Api.newPayload
  split
  · rintro _ ⟨⟩
  · intro status h
    exact trustsHash_judgePayload hhash status (mapError_eq_ok_iff.mp h)

/-! ### What is served -/

/-- A payload without its withdrawals. -/
def withoutWithdrawals (p : Payload) : Payload := { p with withdrawals := none }

/-- The header of a payload without its withdrawals. -/
theorem header_withoutWithdrawals (p : Payload) :
    (withoutWithdrawals p).header = { p.header with withdrawalsRoot := none } := rfl

/-- A payload that has none stays as it is. -/
theorem withoutWithdrawals_eq_self (h : p.withdrawals = none) : withoutWithdrawals p = p := by
  rw [withoutWithdrawals, ← h]

/-- A built block that is asked for is found. -/
theorem result_builtPayload {id : PayloadId} {built : BuiltPayload}
    (hbuilds : e.buildsPayloads = true) (hbuilt : a.builtPayload id = some built) :
    (Api.builtPayload e a id).result = .ok built := by
  rw [Api.builtPayload, getPayload, if_pos hbuilds, hbuilt]
  rfl

/-- The payload of a block that its header commits to declares the hash of its own header. -/
theorem hash_ofBlock (h : b.Committed) : (ofBlock b).header.hash = (ofBlock b).blockHash := by
  rw [header_ofBlock_of_committed h]
  exact h.hash.symm

/-- Without its withdrawals it declares another hash than its own, unless the hash collides. -/
theorem hash_withoutWithdrawals_ne (h : b.Committed) (hwithdrawals : b.withdrawals.isSome)
    (hextra : b.header.header.extraData.length < UInt64.size)
    (hkeccak : keccak256 (withoutWithdrawals (ofBlock b)).header.encode =
        keccak256 b.header.header.encode →
      (withoutWithdrawals (ofBlock b)).header.encode = b.header.header.encode) :
    (withoutWithdrawals (ofBlock b)).header.hash ≠ b.hash := by
  intro hsame
  have hencoded := hkeccak (hsame.trans h.hash)
  have hheader := Header.encode_injective (g := (withoutWithdrawals (ofBlock b)).header) hextra
    hextra rfl h.fee hencoded
  have hroot : none = b.header.header.withdrawalsRoot := congrArg Header.withdrawalsRoot hheader
  rw [h.withdrawals] at hroot
  cases hlist : b.withdrawals with
  | none => simp [hlist] at hwithdrawals
  | some withdrawals => simp [hlist] at hroot

/-- Without its withdrawals it is told so. -/
theorem newPayload_withoutWithdrawals (e : Engine) (a : Answers)
    (hne : (withoutWithdrawals (ofBlock b)).header.hash ≠ b.hash) :
    (Api.newPayload .v1 e a (withoutWithdrawals (ofBlock b))).result = .ok .invalidBlockHash := by
  have hfee : (withoutWithdrawals (ofBlock b)).baseFeePerGas.toNat < UInt64.size := by
    show (ofBlock b).baseFeePerGas.toNat < _
    rw [toNat_fee_ofBlock]
    exact UInt64.toNat_lt _
  have hanswered :=
    newPayload_of_defect (e := e) (a := a) (head?_defects_of_hash hfee hne) (by simp)
  rw [Api.newPayload, if_neg (by simp [withoutWithdrawals]), hanswered]
  rfl

/-! ### A served payload -/

/-- Surroundings in which one block was built, under any name. -/
def having (block : Block) : Answers :=
  { failing "unknown" with builtPayload := fun _ => some ⟨block, 21⟩ }

/-- The header of the block with a body commits to it. -/
theorem committed_creatingBlock : creatingBlock.Committed := passes_creating.wellFormed.committed

/-- The header of the block with a body hashes to something else without the root over the
withdrawals. -/
theorem hash_header_creatingAs_ne :
    ({ (creatingAs (.zero 32)).header with withdrawalsRoot := none } : Header).hash ≠
      (creatingAs (.zero 32)).header.hash := by
  simp only [header, Header.hash, creatingAs, emptyOmmersHash, Option.map_some, Withdrawal.root,
    Trie.orderedRoot, Trie.root, keccak256, Keccak.hash, Keccak.absorb_padded]
  decide +kernel

/-- Without its withdrawals it does not carry its own hash. -/
theorem hash_withoutWithdrawals_creatingBlock :
    (withoutWithdrawals (ofBlock creatingBlock)).header.hash ≠ creatingBlock.hash := by
  have hshown : ofBlock creatingBlock = creating := passes_creating.ofBlock_eq
  have hhash : creatingBlock.hash = creating.header.hash := passes_creating.hash.symm
  rw [hshown, hhash, header_withoutWithdrawals, creating, header_creatingAs]
  exact hash_header_creatingAs_ne

/-- **What is served for a built block carries its own hash, unless withdrawals were left out.**
Take any engine that builds payloads, and any block that was built and that its header commits to.

* The second version serves the payload of the block.  It declares the hash of its own header, so
  that no engine, whatever it has seen and in whatever surroundings, finds its hash wrong.
* The first version serves it without the withdrawals.  If the block could not have any, this is the
  same payload, and the same holds of it.  Otherwise it still declares the hash of the block, and
  every engine finds that wrong: of the hash it is assumed that it does not collide on the two
  headers, of the free bytes that they can be held in memory. -/
theorem served_consistent (e : Engine) (a : Answers) (id : PayloadId) {built : BuiltPayload}
    (hbuilds : e.buildsPayloads = true) (hbuilt : a.builtPayload id = some built)
    (hblock : built.block.Committed) :
    let p := ofBlock built.block
    let q := withoutWithdrawals p
    ((Api.getPayloadV2 e a id).result = .ok ⟨p, built.fees⟩ ∧ p.header.hash = p.blockHash ∧
      ∀ e' a', TrustsHash (Api.newPayload .v2 e' a' p)) ∧
    (Api.getPayloadV1 e a id).result = .ok q ∧ q.blockHash = built.block.hash ∧
      (built.block.withdrawals = none → q.header.hash = q.blockHash ∧
        ∀ e' a', TrustsHash (Api.newPayload .v1 e' a' q)) ∧
      (built.block.withdrawals.isSome →
        built.block.header.header.extraData.length < UInt64.size →
        (keccak256 q.header.encode = keccak256 p.header.encode →
          q.header.encode = p.header.encode) →
        q.header.hash ≠ q.blockHash ∧
          ∀ e' a', (Api.newPayload .v1 e' a' q).result = .ok .invalidBlockHash) := by
  intro p q
  have hfound := result_builtPayload hbuilds hbuilt
  have hconsistent : p.header.hash = p.blockHash := hash_ofBlock hblock
  refine ⟨⟨?_, hconsistent, fun e' a' => trustsHash_newPayload .v2 e' a' hconsistent⟩, ?_, rfl,
    fun hnone => ?_, fun hsome hextra hkeccak => ?_⟩
  · rw [Api.getPayloadV2, result_mapResult, hfound]
    rfl
  · rw [Api.getPayloadV1, result_mapResult, hfound]
    rfl
  · have hsame : q = p := withoutWithdrawals_eq_self hnone
    rw [hsame]
    exact ⟨hconsistent, fun e' a' => trustsHash_newPayload .v1 e' a' hconsistent⟩
  · rw [header_ofBlock_of_committed hblock] at hkeccak
    have hne := hash_withoutWithdrawals_ne hblock hsome hextra hkeccak
    exact ⟨hne, fun e' a' => newPayload_withoutWithdrawals e' a' hne⟩

/-- A block with withdrawals comes back rightly from the second version, one without from both. -/
theorem served_consistent_of_creatingBlock :
    (∃ envelope, (Api.getPayloadV2 fresh (having creatingBlock) (.zero 8)).result = .ok envelope ∧
      envelope.executionPayload.withdrawals.isSome ∧
      ∀ e a, TrustsHash (Api.newPayload .v2 e a envelope.executionPayload)) ∧
    (∃ p, (Api.getPayloadV1 fresh (having creatingBlock) (.zero 8)).result = .ok p ∧
      ∀ e a, (Api.newPayload .v1 e a p).result = .ok .invalidBlockHash) ∧
    ∃ p, (Api.getPayloadV1 fresh (having (bareBlock 12)) (.zero 8)).result = .ok p ∧
      ∀ e a, TrustsHash (Api.newPayload .v1 e a p) := by
  have hbare : (bareBlock 12).Committed := by
    obtain ⟨transactions, hpasses, hblock⟩ := toBlock_eq_ok_iff.mp (toBlock_barePayload 12)
    rw [hblock]
    exact hpasses.wellFormed.committed
  obtain ⟨⟨hsecond, -, htrusted⟩, hfirst, -, -, hwrong⟩ := served_consistent fresh
    (having creatingBlock) (.zero 8) rfl rfl committed_creatingBlock
  obtain ⟨-, hfirst', -, htrusted', -⟩ := served_consistent fresh (having (bareBlock 12))
    (.zero 8) rfl rfl hbare
  refine ⟨⟨_, hsecond, rfl, htrusted⟩, ⟨_, hfirst, (hwrong rfl (by decide) fun hkeccak => ?_).2⟩,
    ⟨_, hfirst', (htrusted' rfl).2⟩⟩
  refine absurd (hkeccak.trans ?_) hash_withoutWithdrawals_creatingBlock
  rw [header_ofBlock_of_committed committed_creatingBlock]
  exact committed_creatingBlock.hash.symm

/-- **The first version serves a block with withdrawals under a hash that is not that of what it
serves**, and what it serves is refused for it. -/
theorem withdrawals_lose_hash :
    fresh.buildsPayloads = true ∧
      (having creatingBlock).builtPayload (.zero 8) = some ⟨creatingBlock, 21⟩ ∧
      creatingBlock.Committed ∧
      ∃ p, (Api.getPayloadV1 fresh (having creatingBlock) (.zero 8)).result = .ok p ∧
        p.header.hash ≠ p.blockHash ∧
        (Api.newPayload .v1 fresh (having creatingBlock) p).result = .ok .invalidBlockHash :=
  ⟨rfl, rfl, committed_creatingBlock, _, rfl, hash_withoutWithdrawals_creatingBlock,
    newPayload_withoutWithdrawals _ _ hash_withoutWithdrawals_creatingBlock⟩

end ExecutionNode.Engine
