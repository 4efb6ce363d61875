import ExecutionNode.Proofs.Engine.Permanence

/-!
# What the answers look like

Every exit of judging a payload and of following a forkchoice state has its own answer, and the
answer shows which exits it can have come from.

* `PayloadAnswer` and `HeadAnswer` list the exits, each with what was found out on the way to it.
  There is one lemma a stage, and they end in `payloadAnswer_of_newPayload` and
  `headAnswer_of_forkchoiceUpdated`.
* `PayloadAnswer.wellShaped` and `HeadAnswer.wellShaped` read off the exits what each verdict says
  about the latest valid hash and the error text.
* `Unjudged` is a block about which nothing is settled before the sync state is asked.  Its answer
  says that the node is syncing exactly if the initial sync runs or the parent is unknown
  (`newPayload_syncing_iff`).

`statuses_wellShaped` puts these together.
-/

namespace ExecutionNode.Engine

variable {e : Engine} {a : Answers} {payload : Payload} {block : Block} {parent : SealedHeader}
  {descends : Bool} {ancestor : Option Hash} {status : PayloadStatus} {head : Hash}

/-! ### The answers to a payload -/

/-- A payload is a block that is neither recorded nor stored. -/
structure Unjudged (e : Engine) (a : Answers) (payload : Payload) (block : Block) : Prop where
  /-- The payload is a block. -/
  converts : payload.toBlock e.maxExtraData = .ok block
  /-- It did not fail before. -/
  unrecorded : e.badBlocks.contains block.hash = false
  /-- It is not stored. -/
  unstored : a.block block.hash = .ok none

/-- The statuses that a payload can be answered with, one constructor for each exit. -/
inductive PayloadAnswer (e : Engine) (a : Answers) (payload : Payload) : PayloadStatus → Prop where
  /-- The payload declares a wrong hash. -/
  | mismatched {computed declared : Hash}
      (broken : payload.toBlock e.maxExtraData = .error (.blockHash computed declared)) :
      PayloadAnswer e a payload .invalidBlockHash
  /-- The payload is no block for another reason. -/
  | malformed {error : Payload.ConversionError} (latestValid : Option Hash)
      (broken : payload.toBlock e.maxExtraData = .error error) :
      PayloadAnswer e a payload (.invalid latestValid (some error.message))
  /-- The block failed before. -/
  | recorded {block : Block} {b : BadBlock}
      (converts : payload.toBlock e.maxExtraData = .ok block)
      (record : e.badBlocks.find? block.hash = some b) :
      PayloadAnswer e a payload (.invalid (some b.shownHash) b.text?)
  /-- The block is stored. -/
  | stored {block known : Block} (converts : payload.toBlock e.maxExtraData = .ok block)
      (unrecorded : e.badBlocks.contains block.hash = false)
      (stored : a.block block.hash = .ok (some known)) :
      PayloadAnswer e a payload (.valid block.hash)
  /-- The initial sync runs. -/
  | waiting {block : Block} (unjudged : Unjudged e a payload block) (syncing : a.syncing = true) :
      PayloadAnswer e a payload .syncing
  /-- The parent is not stored. -/
  | orphan {block : Block} (unjudged : Unjudged e a payload block) (synced : a.syncing = false)
      (parentless : a.header block.header.header.parentHash = .ok none) :
      PayloadAnswer e a payload .syncing
  /-- The block is not younger than its parent. -/
  | notYounger {block : Block} {parent : SealedHeader} {descends : Bool} {ancestor : Option Hash}
      (examined : Examined e a payload block parent descends ancestor)
      (order : block.header.header.timestamp ≤ parent.header.timestamp) :
      PayloadAnswer e a payload
        (.invalid (if descends then ancestor else some (.zero 32)) (some Engine.notYounger))
  /-- The block does not descend from the terminal block. -/
  | notDescended {block : Block} {parent : SealedHeader} {ancestor : Option Hash}
      (examined : Examined e a payload block parent false ancestor)
      (order : ¬ block.header.header.timestamp ≤ parent.header.timestamp) :
      PayloadAnswer e a payload
        (.invalid (some (.zero 32)) (some (Engine.notDescended block.hash)))
  /-- The latest valid ancestor is not known. -/
  | undetermined {block : Block} {parent : SealedHeader}
      (examined : Examined e a payload block parent true none)
      (order : ¬ block.header.header.timestamp ≤ parent.header.timestamp) :
      PayloadAnswer e a payload .accepted
  /-- The block was executed. -/
  | executed {block : Block} {parent : SealedHeader} {ancestor : Hash} {outputs : Outputs}
      (examined : Examined e a payload block parent true (some ancestor))
      (order : ¬ block.header.header.timestamp ≤ parent.header.timestamp)
      (success : a.process block = .ok (.success outputs)) :
      PayloadAnswer e a payload (.valid block.hash)
  /-- The block was executed and failed. -/
  | failed {block : Block} {parent : SealedHeader} {ancestor : Hash} {reason : String}
      (examined : Examined e a payload block parent true (some ancestor))
      (order : ¬ block.header.header.timestamp ≤ parent.header.timestamp)
      (failure : a.process block = .ok (.failure reason)) :
      PayloadAnswer e a payload (.invalid (some ancestor) (some reason))

/-- A reply that goes on with what was read has a result only if the reading has one. -/
theorem result_reading_eq_ok {α β : Type} {read : Except ReadError α}
    {go : α → Reply CallError β} {b : β} (h : (e.reading read go).result = .ok b) :
    ∃ x, read = .ok x ∧ (go x).result = .ok b := by
  cases read with
  | error error => cases h
  | ok x => exact ⟨x, rfl, h⟩

/-- What a payload is answered with that is no block. -/
theorem payloadAnswer_of_malformed {error : Payload.ConversionError}
    (hbroken : payload.toBlock e.maxExtraData = .error error)
    (h : (e.malformed a payload.parentHash error).result = .ok status) :
    PayloadAnswer e a payload status := by
  unfold malformed at h
  split at h
  · cases h
    exact .mismatched hbroken
  · rw [result_reply_after] at h
    obtain ⟨latestValid, -, h⟩ := result_reading_eq_ok h
    cases h
    exact .malformed latestValid hbroken
  · cases h
    exact .malformed none hbroken

/-- What an examined block is answered with when it is executed. -/
theorem payloadAnswer_of_execute {ancestor : Hash}
    (hex : Examined e a payload block parent true (some ancestor))
    (horder : ¬ block.header.header.timestamp ≤ parent.header.timestamp)
    (h : (e.execute a block ancestor).result = .ok status) : PayloadAnswer e a payload status := by
  unfold execute at h
  rw [result_reply_after] at h
  split at h
  · cases h
  · cases h
  · rename_i hprocess
    cases h
    exact .executed hex horder hprocess
  · rename_i hprocess
    cases h
    exact .failed hex horder hprocess

/-- What an examined block is answered with. -/
theorem payloadAnswer_of_judge (hex : Examined e a payload block parent descends ancestor)
    (h : (e.judge a block parent descends ancestor).result = .ok status) :
    PayloadAnswer e a payload status := by
  unfold judge at h
  by_cases horder : block.header.header.timestamp ≤ parent.header.timestamp
  · rw [if_pos horder] at h
    cases h
    exact .notYounger hex horder
  · rw [if_neg horder] at h
    cases descends with
    | false =>
      cases h
      exact .notDescended hex horder
    | true =>
      cases ancestor with
      | none =>
        cases h
        exact .undetermined hex horder
      | some ancestor => exact payloadAnswer_of_execute hex horder h

/-- What an unjudged block is answered with after the initial sync. -/
theorem payloadAnswer_of_findParent (hun : Unjudged e a payload block) (hsynced : a.syncing = false)
    (h : (e.findParent a block).result = .ok status) : PayloadAnswer e a payload status := by
  dsimp only [findParent] at h
  rw [result_reply_after] at h
  obtain ⟨known, hparent, h⟩ := result_reading_eq_ok h
  cases known with
  | none =>
    cases h
    exact .orphan hun hsynced hparent
  | some parent =>
    dsimp only [resolve] at h
    rw [result_reply_after] at h
    obtain ⟨descends, hdescent, h⟩ := result_reading_eq_ok h
    rw [result_reply_after] at h
    obtain ⟨ancestor, hancestry, h⟩ := result_reading_eq_ok h
    exact payloadAnswer_of_judge ⟨hun.converts, hun.unrecorded, hun.unstored, hsynced, hparent,
      hdescent, hancestry⟩ h

/-- What a block is answered with that is not recorded. -/
theorem payloadAnswer_of_admission (hconv : payload.toBlock e.maxExtraData = .ok block)
    (hfresh : e.badBlocks.contains block.hash = false)
    (h : (e.admission a block).result = .ok status) : PayloadAnswer e a payload status := by
  unfold admission at h
  rw [result_reply_after] at h
  obtain ⟨known, hstored, h⟩ := result_reading_eq_ok h
  cases known with
  | some known =>
    cases h
    exact .stored hconv hfresh hstored
  | none =>
    rw [result_reply_after] at h
    by_cases hsyncing : a.syncing = true
    · rw [if_pos hsyncing] at h
      cases h
      exact .waiting ⟨hconv, hfresh, hstored⟩ hsyncing
    · rw [if_neg hsyncing] at h
      exact payloadAnswer_of_findParent ⟨hconv, hfresh, hstored⟩ (Bool.not_eq_true _ ▸ hsyncing) h

/-- Every status of a payload comes from one of the exits. -/
theorem payloadAnswer_of_newPayload (h : (e.newPayload a payload).result = .ok status) :
    PayloadAnswer e a payload status := by
  unfold newPayload at h
  rw [result_followedBy, result_reply_after, judgePayload] at h
  cases hconv : payload.toBlock e.maxExtraData with
  | error error =>
    rw [hconv] at h
    exact payloadAnswer_of_malformed hconv h
  | ok block =>
    rw [hconv] at h
    dsimp only at h
    cases hfind : e.badBlocks.find? block.hash with
    | some b =>
      rw [status?_of_find? hfind] at h
      cases h
      exact .recorded hconv hfind
    | none =>
      have hfresh : e.badBlocks.contains block.hash = false := by
        rw [BadBlocks.contains, hfind]
        rfl
      rw [BadBlocks.status?_eq_none_iff.mpr hfresh] at h
      exact payloadAnswer_of_admission hconv hfresh h

/-! ### The answers to a forkchoice state -/

/-- The statuses that a head can be answered with, one constructor for each exit. -/
inductive HeadAnswer (e : Engine) (a : Answers) (head : Hash) : PayloadStatus → Prop where
  /-- There is no head. -/
  | zero (headless : head.isZero = true) : HeadAnswer e a head (.invalid none (some zeroHead))
  /-- The head failed before. -/
  | recorded {b : BadBlock} (nonzero : head.isZero = false)
      (record : e.badBlocks.find? head = some b) :
      HeadAnswer e a head (.invalid (some b.shownHash) b.text?)
  /-- The initial sync runs, or the head is unknown. -/
  | syncing (nonzero : head.isZero = false) (unrecorded : e.badBlocks.contains head = false) :
      HeadAnswer e a head .syncing
  /-- The head is known. -/
  | known (nonzero : head.isZero = false) (unrecorded : e.badBlocks.contains head = false) :
      HeadAnswer e a head (.valid head)

/-- A known head is valid, whether or not a payload is built on it. -/
theorem status_of_startBuilding {header : SealedHeader} {attributes : Option PayloadAttributes}
    {updated : ForkchoiceUpdated}
    (h : (e.startBuilding a header head attributes).result = .ok updated) :
    updated.status = .valid head := by
  unfold startBuilding at h
  split at h
  · cases h
    rfl
  · split at h
    · cases h
      rfl
    · cases h
      rfl

/-- Every status of a head comes from one of the exits. -/
theorem headAnswer_of_forkchoiceUpdated {state : ForkchoiceState}
    {attributes : Option PayloadAttributes} {updated : ForkchoiceUpdated}
    (h : (e.forkchoiceUpdated a state attributes).result = .ok updated) :
    HeadAnswer e a state.head updated.status := by
  unfold forkchoiceUpdated judgeForkchoice at h
  rw [result_followedBy, result_reply_after] at h
  by_cases hzero : state.head.isZero = true
  · rw [if_pos hzero] at h
    cases h
    exact .zero hzero
  have hnonzero : state.head.isZero = false := Bool.not_eq_true _ ▸ hzero
  rw [if_neg hzero, result_reply_after, judgeHead] at h
  cases hfind : e.badBlocks.find? state.head with
  | some b =>
    rw [status?_of_find? hfind] at h
    cases h
    exact .recorded hnonzero hfind
  | none =>
    have hfresh : e.badBlocks.contains state.head = false := by
      rw [BadBlocks.contains, hfind]
      rfl
    rw [BadBlocks.status?_eq_none_iff.mpr hfresh] at h
    dsimp only at h
    rw [result_reply_after] at h
    by_cases hsyncing : a.syncing = true
    · rw [if_pos hsyncing] at h
      cases h
      exact .syncing hnonzero hfresh
    · rw [if_neg hsyncing, result_reply_after] at h
      obtain ⟨known, -, h⟩ := result_reading_eq_ok h
      cases known with
      | none =>
        cases h
        exact .syncing hnonzero hfresh
      | some header =>
        rw [status_of_startBuilding h]
        exact .known hnonzero hfresh

/-! ### What a verdict says -/

/-- The hash of the block that a payload is, if it is one. -/
def submitted? (e : Engine) (payload : Payload) : Option Hash :=
  (payload.toBlock e.maxExtraData).toOption.map (·.hash)

/-- The head of a forkchoice state, if there is one. -/
def announced? (state : ForkchoiceState) : Option Hash :=
  if state.head.isZero then none else some state.head

/-- What a status says besides its verdict fits the verdict and the record of the hash that was
asked about, if the question had one. -/
structure WellShaped (registry : BadBlocks) (asked : Option Hash) (status : PayloadStatus) :
    Prop where
  /-- A valid hash is its own latest valid hash. -/
  valid : status.verdict = .valid → asked.isSome ∧ status.latestValidHash = asked
  /-- A status that settles nothing, or only that the declared hash is wrong, is the verdict
  alone. -/
  bare : status.verdict ∈ [.syncing, .accepted, .invalidBlockHash] →
    status.latestValidHash = none ∧ status.verdict.error? = none
  /-- The error text of an invalid status is missing exactly if the hash has a record with an
  ancestor. -/
  unexplained : status.verdict = .invalid none ↔
    ∃ hash ancestor, asked = some hash ∧ registry.latestValidHash hash = some ancestor
  /-- The ancestor of a record is the latest valid hash. -/
  ancestor : ∀ hash ancestor, asked = some hash → registry.latestValidHash hash = some ancestor →
    status.latestValidHash = some ancestor

section shapes

variable {registry : BadBlocks} {asked : Option Hash}

/-- What is recorded of a hash is what its record says. -/
theorem latestValidHash_of_find? {hash : Hash} {b : BadBlock}
    (h : registry.find? hash = some b) : registry.latestValidHash hash = b.latestValidHash := by
  rw [BadBlocks.latestValidHash, h, Option.bind_some]

/-- Nothing is recorded of a hash that did not fail. -/
theorem latestValidHash_of_contains_eq_false {hash : Hash} (h : registry.contains hash = false) :
    registry.latestValidHash hash = none := by
  have hfind : registry.find? hash = none := Option.not_isSome_iff_eq_none.mp (by
    rw [← BadBlocks.contains, h]
    exact Bool.false_ne_true)
  rw [BadBlocks.latestValidHash, hfind, Option.bind_none]

/-- Without a record it is enough that the verdict is told with what belongs to it. -/
theorem WellShaped.of_unrecorded
    (hasked : ∀ hash, asked = some hash → registry.latestValidHash hash = none)
    (hvalid : status.verdict = .valid → asked.isSome ∧ status.latestValidHash = asked)
    (hbare : status.verdict ∈ [.syncing, .accepted, .invalidBlockHash] →
      status.latestValidHash = none)
    (hexplained : status.verdict ≠ .invalid none) : WellShaped registry asked status where
  valid := hvalid
  bare h := by
    refine ⟨hbare h, ?_⟩
    simp only [List.mem_cons, List.not_mem_nil, or_false] at h
    rcases h with h | h | h <;> rw [h] <;> rfl
  unexplained := by
    refine ⟨fun h => absurd h hexplained, ?_⟩
    rintro ⟨hash, ancestor, hhash, hrecorded⟩
    rw [hasked hash hhash] at hrecorded
    cases hrecorded
  ancestor hash ancestor hhash hrecorded := by
    rw [hasked hash hhash] at hrecorded
    cases hrecorded

/-- A valid status is well shaped for a hash that did not fail. -/
theorem wellShaped_valid {hash : Hash} (h : registry.contains hash = false) :
    WellShaped registry (some hash) (.valid hash) := by
  refine .of_unrecorded ?_ (fun _ => ⟨rfl, rfl⟩) (by simp [PayloadStatus.valid])
    (by simp [PayloadStatus.valid])
  rintro _ ⟨⟩
  exact latestValidHash_of_contains_eq_false h

/-- A verdict alone is well shaped if it is neither `valid` nor `invalid`. -/
theorem wellShaped_bare {verdict : Verdict}
    (hverdict : verdict ∈ [.syncing, .accepted, .invalidBlockHash])
    (h : ∀ hash, asked = some hash → registry.contains hash = false) :
    WellShaped registry asked (.bare verdict) := by
  refine .of_unrecorded (fun hash hhash => latestValidHash_of_contains_eq_false (h hash hhash))
    ?_ (fun _ => rfl) ?_
  · rintro rfl
    simp at hverdict
  · rintro rfl
    simp at hverdict

/-- An invalid status with a reason is well shaped for a hash that did not fail. -/
theorem wellShaped_invalid (latestValid : Option Hash) (reason : String)
    (h : ∀ hash, asked = some hash → registry.contains hash = false) :
    WellShaped registry asked (.invalid latestValid (some reason)) := by
  refine .of_unrecorded (fun hash hhash => latestValidHash_of_contains_eq_false (h hash hhash))
    ?_ ?_ ?_
  · simp [PayloadStatus.invalid]
  · simp [PayloadStatus.invalid]
  · simp [PayloadStatus.invalid]

/-- What the registry answers is well shaped. -/
theorem wellShaped_recorded {hash : Hash} {b : BadBlock} (h : registry.find? hash = some b) :
    WellShaped registry (some hash) (.invalid (some b.shownHash) b.text?) where
  valid hvalid := by cases hvalid
  bare hbare := by simp [PayloadStatus.invalid] at hbare
  unexplained := by
    simp only [PayloadStatus.invalid, Option.some.injEq, exists_and_left, exists_eq_left',
      latestValidHash_of_find? h, Verdict.invalid.injEq, BadBlock.text?]
    cases b.latestValidHash <;> simp
  ancestor := by
    rintro _ ancestor ⟨⟩ hancestor
    rw [latestValidHash_of_find? h] at hancestor
    rw [PayloadStatus.invalid, BadBlock.shownHash, hancestor, Option.getD_some]

end shapes

/-- The hash of a payload that is a block. -/
theorem submitted?_of_toBlock (h : payload.toBlock e.maxExtraData = .ok block) :
    e.submitted? payload = some block.hash := by
  rw [submitted?, h]
  rfl

/-- A payload that is no block has no hash. -/
theorem submitted?_of_error {error : Payload.ConversionError}
    (h : payload.toBlock e.maxExtraData = .error error) : e.submitted? payload = none := by
  rw [submitted?, h]
  rfl

/-- What did not fail before is not recorded under the hash of the payload. -/
theorem contains_of_submitted? (hconv : payload.toBlock e.maxExtraData = .ok block)
    (hfresh : e.badBlocks.contains block.hash = false) (hash : Hash)
    (h : e.submitted? payload = some hash) : e.badBlocks.contains hash = false := by
  rw [submitted?_of_toBlock hconv] at h
  cases h
  exact hfresh

/-- Every answer to a payload is well shaped for the hash of its block. -/
theorem PayloadAnswer.wellShaped (h : PayloadAnswer e a payload status) :
    WellShaped e.badBlocks (e.submitted? payload) status := by
  cases h with
  | mismatched broken =>
    refine wellShaped_bare (by simp) fun hash hhash => ?_
    rw [submitted?_of_error broken] at hhash
    cases hhash
  | malformed latestValid broken =>
    refine wellShaped_invalid latestValid _ fun hash hhash => ?_
    rw [submitted?_of_error broken] at hhash
    cases hhash
  | recorded converts record =>
    rw [submitted?_of_toBlock converts]
    exact wellShaped_recorded record
  | stored converts unrecorded stored =>
    rw [submitted?_of_toBlock converts]
    exact wellShaped_valid unrecorded
  | waiting unjudged syncing =>
    exact wellShaped_bare (by simp) (contains_of_submitted? unjudged.converts unjudged.unrecorded)
  | orphan unjudged synced parentless =>
    exact wellShaped_bare (by simp) (contains_of_submitted? unjudged.converts unjudged.unrecorded)
  | notYounger examined order =>
    exact wellShaped_invalid _ _ (contains_of_submitted? examined.converts examined.unrecorded)
  | notDescended examined order =>
    exact wellShaped_invalid _ _ (contains_of_submitted? examined.converts examined.unrecorded)
  | undetermined examined order =>
    exact wellShaped_bare (by simp) (contains_of_submitted? examined.converts examined.unrecorded)
  | executed examined order success =>
    rw [submitted?_of_toBlock examined.converts]
    exact wellShaped_valid examined.unrecorded
  | failed examined order failure =>
    exact wellShaped_invalid _ _ (contains_of_submitted? examined.converts examined.unrecorded)

/-- An invalid answer to a payload lacks the latest valid hash only if the payload is no block, or
its block is not younger than its parent and its ancestor is not known. -/
theorem PayloadAnswer.of_invalid_none {error : Option String}
    (h : PayloadAnswer e a payload (.invalid none error)) :
    e.submitted? payload = none ∨ ∃ block parent, Examined e a payload block parent true none ∧
      block.header.header.timestamp ≤ parent.header.timestamp := by
  generalize hstatus : PayloadStatus.invalid none error = status at h
  cases h with
  | malformed latestValid broken => exact .inl (submitted?_of_error broken)
  | @notYounger block parent descends ancestor examined order =>
    cases descends with
    | false => cases hstatus
    | true =>
      obtain rfl : none = ancestor := (PayloadStatus.mk.inj hstatus).2
      exact .inr ⟨block, parent, examined, order⟩
  | _ => cases hstatus

/-- A zero head is no head. -/
theorem announced?_of_zero {state : ForkchoiceState} (h : state.head.isZero = true) :
    announced? state = none := if_pos h

/-- Any other head is one. -/
theorem announced?_of_nonzero {state : ForkchoiceState} (h : state.head.isZero = false) :
    announced? state = some state.head := by
  rw [announced?, h]
  rfl

/-- Every answer to a head is well shaped for the head. -/
theorem HeadAnswer.wellShaped {state : ForkchoiceState} (h : HeadAnswer e a state.head status) :
    WellShaped e.badBlocks (announced? state) status := by
  cases h with
  | zero headless =>
    rw [announced?_of_zero headless]
    exact wellShaped_invalid _ _ (by simp)
  | recorded nonzero record =>
    rw [announced?_of_nonzero nonzero]
    exact wellShaped_recorded record
  | syncing nonzero unrecorded =>
    rw [announced?_of_nonzero nonzero]
    exact wellShaped_bare (by simp) (by simpa using unrecorded)
  | known nonzero unrecorded =>
    rw [announced?_of_nonzero nonzero]
    exact wellShaped_valid unrecorded

/-- An answer to a head is never that the head is kept or declares a wrong hash. -/
theorem HeadAnswer.verdict_ne (h : HeadAnswer e a head status) :
    status.verdict ≠ .accepted ∧ status.verdict ≠ .invalidBlockHash := by
  cases h with
  | zero headless => simp [PayloadStatus.invalid]
  | recorded nonzero record => simp [PayloadStatus.invalid]
  | syncing nonzero unrecorded => simp [PayloadStatus.syncing, PayloadStatus.bare]
  | known nonzero unrecorded => simp [PayloadStatus.valid]

/-- An invalid answer to a head lacks the latest valid hash only if there is no head. -/
theorem HeadAnswer.of_invalid_none {error : Option String}
    (h : HeadAnswer e a head (.invalid none error)) : head.isZero = true := by
  generalize hstatus : PayloadStatus.invalid none error = status at h
  cases h with
  | zero headless => exact headless
  | _ => cases hstatus

/-! ### Blocks with a known ancestor -/

/-- An ancestor is recorded in a record that shows it without an error text. -/
theorem exists_find?_of_latestValidHash {registry : BadBlocks} {hash ancestor : Hash}
    (h : registry.latestValidHash hash = some ancestor) :
    ∃ b, registry.find? hash = some b ∧ b.shownHash = ancestor ∧ b.text? = none := by
  obtain ⟨b, hfind, hancestor⟩ := Option.bind_eq_some_iff.mp h
  refine ⟨b, hfind, ?_, ?_⟩
  · rw [BadBlock.shownHash, hancestor, Option.getD_some]
  · rw [BadBlock.text?, hancestor]

/-- A payload whose block is recorded with an ancestor is answered with the ancestor alone. -/
theorem result_newPayload_of_latestValidHash {hash ancestor : Hash}
    (hsubmitted : e.submitted? payload = some hash)
    (h : e.badBlocks.latestValidHash hash = some ancestor) :
    (e.newPayload a payload).result = .ok (.invalid (some ancestor) none) := by
  obtain ⟨b, hfind, rfl, htext⟩ := exists_find?_of_latestValidHash h
  cases hconv : payload.toBlock e.maxExtraData with
  | error error =>
    rw [submitted?_of_error hconv] at hsubmitted
    cases hsubmitted
  | ok block =>
    rw [submitted?_of_toBlock hconv] at hsubmitted
    cases hsubmitted
    rw [newPayload_of_find? hconv hfind, htext]

/-- A head that is recorded with an ancestor is answered with the ancestor alone. -/
theorem result_forkchoiceUpdated_of_latestValidHash {state : ForkchoiceState} {hash ancestor : Hash}
    (attributes : Option PayloadAttributes) (hannounced : announced? state = some hash)
    (h : e.badBlocks.latestValidHash hash = some ancestor) :
    (e.forkchoiceUpdated a state attributes).result =
      .ok (.ofStatus (.invalid (some ancestor) none)) := by
  obtain ⟨b, hfind, rfl, htext⟩ := exists_find?_of_latestValidHash h
  cases hzero : state.head.isZero with
  | true =>
    rw [announced?_of_zero hzero] at hannounced
    cases hannounced
  | false =>
    rw [announced?_of_nonzero hzero] at hannounced
    cases hannounced
    rw [forkchoiceUpdated_of_find? attributes hzero hfind, htext]
    rfl

/-! ### Blocks about which nothing is settled -/

/-- How an unjudged block is answered is up to the sync state and then to its parent. -/
theorem result_newPayload_of_unjudged (h : Unjudged e a payload block) :
    (e.newPayload a payload).result =
      if a.syncing then .ok .syncing else (e.findParent a block).result := by
  have hfresh := BadBlocks.status?_eq_none_iff.mpr h.unrecorded
  rw [newPayload, result_followedBy, result_reply_after, judgePayload, h.converts]
  dsimp only
  rw [hfresh]
  dsimp only
  rw [admission, result_reply_after, h.unstored]
  dsimp only [reading]
  rw [result_reply_after]
  split <;> rfl

/-- An unjudged block is answered with `syncing` exactly if the initial sync runs or its parent is
unknown. -/
theorem newPayload_syncing_iff (h : Unjudged e a payload block) :
    (e.newPayload a payload).result = .ok .syncing ↔
      a.syncing = true ∨ a.header block.header.header.parentHash = .ok none := by
  constructor
  · intro hresult
    generalize hstatus : PayloadStatus.syncing = status at hresult
    cases payloadAnswer_of_newPayload hresult with
    | waiting unjudged syncing => exact .inl syncing
    | orphan unjudged synced parentless =>
      obtain rfl := Except.ok.inj (h.converts.symm.trans unjudged.converts)
      exact .inr parentless
    | _ => cases hstatus
  · intro hunready
    rw [result_newPayload_of_unjudged h]
    split
    · rfl
    · rename_i hsynced
      have hparentless := hunready.resolve_left hsynced
      rw [findParent, result_reply_after, hparentless]
      rfl

/-- A payload is answered with `accepted` exactly if it was examined to the end, is younger than
its parent and descends from the terminal block, and its ancestor is not known. -/
theorem newPayload_accepted_iff :
    (e.newPayload a payload).result = .ok .accepted ↔
      ∃ block parent, Examined e a payload block parent true none ∧
        ¬ block.header.header.timestamp ≤ parent.header.timestamp := by
  constructor
  · intro hresult
    generalize hstatus : PayloadStatus.accepted = status at hresult
    cases payloadAnswer_of_newPayload hresult with
    | @undetermined block parent examined order => exact ⟨block, parent, examined, order⟩
    | _ => cases hstatus
  · rintro ⟨block, parent, hex, horder⟩
    rw [newPayload, result_followedBy, result_reply_after, judgePayload_of_examined hex,
      result_reply_after, judge, if_neg horder]
    rfl

/-- **Answers are well shaped.** For every engine, whatever it was asked before, and all answers of
its surroundings:

* Every status of a payload is well shaped for the hash of its block.  It is invalid without a
  latest valid hash only if the payload is no block, or its block is not younger than its parent,
  descends from the terminal block and has no known ancestor.
* A payload whose block is recorded with an ancestor is answered as invalid with that ancestor and
  without an error text.
* A block that is neither recorded nor stored is answered with `syncing` exactly if the initial
  sync runs or its parent is unknown; and a payload is answered with `accepted` exactly if all that
  is missing is its ancestor.
* Every status of a forkchoice state is well shaped for its head, and is neither `accepted` nor
  `invalidBlockHash`.  It is invalid without a latest valid hash only if the head is zero.
* A nonzero head that is recorded with an ancestor is answered like a payload of it. -/
theorem statuses_wellShaped (e : Engine) (a : Answers) :
    (∀ payload status, (e.newPayload a payload).result = .ok status →
      WellShaped e.badBlocks (e.submitted? payload) status ∧
      ∀ error, status = .invalid none error → e.submitted? payload = none ∨
        ∃ block parent, Examined e a payload block parent true none ∧
          block.header.header.timestamp ≤ parent.header.timestamp) ∧
    (∀ payload hash ancestor, e.submitted? payload = some hash →
      e.badBlocks.latestValidHash hash = some ancestor →
      (e.newPayload a payload).result = .ok (.invalid (some ancestor) none)) ∧
    (∀ payload block, Unjudged e a payload block →
      ((e.newPayload a payload).result = .ok .syncing ↔
        a.syncing = true ∨ a.header block.header.header.parentHash = .ok none)) ∧
    (∀ payload, (e.newPayload a payload).result = .ok .accepted ↔
      ∃ block parent, Examined e a payload block parent true none ∧
        ¬ block.header.header.timestamp ≤ parent.header.timestamp) ∧
    (∀ state attributes updated,
      (e.forkchoiceUpdated a state attributes).result = .ok updated →
      WellShaped e.badBlocks (announced? state) updated.status ∧
      (updated.status.verdict ≠ .accepted ∧ updated.status.verdict ≠ .invalidBlockHash) ∧
      ∀ error, updated.status = .invalid none error → announced? state = none) ∧
    (∀ state attributes head ancestor, announced? state = some head →
      e.badBlocks.latestValidHash head = some ancestor →
      (e.forkchoiceUpdated a state attributes).result =
        .ok (.ofStatus (.invalid (some ancestor) none))) := by
  refine ⟨fun payload status h => ⟨?_, ?_⟩, ?_, fun payload block => newPayload_syncing_iff,
    fun payload => newPayload_accepted_iff, fun state attributes updated h => ⟨?_, ?_, ?_⟩, ?_⟩
  · exact (payloadAnswer_of_newPayload h).wellShaped
  · rintro error rfl
    exact (payloadAnswer_of_newPayload h).of_invalid_none
  · exact fun payload hash ancestor => result_newPayload_of_latestValidHash
  · exact (headAnswer_of_forkchoiceUpdated h).wellShaped
  · exact (headAnswer_of_forkchoiceUpdated h).verdict_ne
  · intro error hstatus
    have hanswer := headAnswer_of_forkchoiceUpdated h
    rw [hstatus] at hanswer
    exact announced?_of_zero hanswer.of_invalid_none
  · exact fun state attributes head ancestor =>
      result_forkchoiceUpdated_of_latestValidHash attributes

end ExecutionNode.Engine
