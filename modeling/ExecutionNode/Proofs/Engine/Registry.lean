import ExecutionNode.Proofs.Engine.Admission
import Mathlib.Data.List.Nodup

/-!
# What enters the registry of bad blocks

A block is condemned for one of two reasons, and only after it was examined to the end and found
younger than its parent: it does not descend from the terminal block, or it was executed on top of
a known ancestor and failed.  `Condemns` spells this out, `Executes` says which block the processor
is given.

* `exists_added_handle`, `mem_executed_handle_iff`: one input records exactly what it condemns, and
  has exactly that executed which it is to have executed.
* `entries_prefix_after`: records are never removed or altered.
* `mem_entries_after_iff`: after a session the registry holds what it held before and what some
  input of the session condemned, and nothing else.
* `badBlocks_exact` puts these together for every engine and every session.
-/

namespace ExecutionNode.Engine

variable {e : Engine} {a : Answers} {input : Input}

/-- An input condemns a block: it is recorded, with its latest valid ancestor if that is known. -/
inductive Condemns (e : Engine) (a : Answers) : Input → BadBlock → Prop where
  /-- The block does not descend from the terminal block. -/
  | notDescended {payload : Payload} {block : Block} {parent : SealedHeader}
      {ancestor : Option Hash} (examined : Examined e a payload block parent false ancestor)
      (younger : parent.header.timestamp < block.header.header.timestamp) :
      Condemns e a (.newPayload payload) ⟨block.id, none⟩
  /-- The block was executed and failed. -/
  | failed {payload : Payload} {block : Block} {parent : SealedHeader} {ancestor : Hash}
      {reason : String} (examined : Examined e a payload block parent true (some ancestor))
      (younger : parent.header.timestamp < block.header.header.timestamp)
      (fails : a.process block = .ok (.failure reason)) :
      Condemns e a (.newPayload payload) ⟨block.id, some ancestor⟩

/-- An input has a block executed. -/
inductive Executes (e : Engine) (a : Answers) : Input → Block → Prop where
  /-- The block descends from the terminal block, and its latest valid ancestor is known. -/
  | examined {payload : Payload} {block : Block} {parent : SealedHeader} {ancestor : Hash}
      (examined : Examined e a payload block parent true (some ancestor))
      (younger : parent.header.timestamp < block.header.header.timestamp) :
      Executes e a (.newPayload payload) block

/-! ### One input -/

/-- The registry and the executed blocks of a payload are those of its verdict. -/
theorem newPayload_of_examined {payload : Payload} {block : Block} {parent : SealedHeader}
    {descends : Bool} {ancestor : Option Hash}
    (h : Examined e a payload block parent descends ancestor) :
    (e.newPayload a payload).badBlocks = (e.judge a block parent descends ancestor).badBlocks ∧
      (e.newPayload a payload).executed = (e.judge a block parent descends ancestor).executed := by
  unfold newPayload
  rw [judgePayload_of_examined h]
  exact ⟨rfl, (executed_followedBy _ rfl).trans ((executed_after _ rfl).trans
    (executed_after _ rfl))⟩

/-- A payload that is answered idly leaves the engine idle. -/
theorem Idle.newPayload {payload : Payload} (h : Idle e (e.judgePayload a payload)) :
    Idle e (e.newPayload a payload) :=
  (Idle.after h rfl).followedBy rfl

/-- Following a forkchoice state records nothing and has nothing executed. -/
theorem idle_forkchoiceUpdated (e : Engine) (a : Answers) (state : ForkchoiceState)
    (attributes : Option PayloadAttributes) : Idle e (e.forkchoiceUpdated a state attributes) := by
  have hbuild : ∀ header hash, Idle e (e.startBuilding a header hash attributes) := by
    intro header hash
    dsimp only [startBuilding]
    split
    · exact idle_answer _
    · split
      · exact (idle_answer _).after rfl
      · exact idle_answer _
  have hhead : ∀ head, Idle e (e.judgeHead a head attributes) := by
    intro head
    dsimp only [judgeHead, reading]
    split
    · exact idle_answer _
    · split
      · exact (idle_answer _).after rfl
      · cases a.header head with
        | error error => exact ((idle_fail _).after rfl).after rfl
        | ok known =>
          cases known with
          | none => exact (((idle_answer _).after rfl).after rfl).after rfl
          | some header => exact ((hbuild header head).after rfl).after rfl
  have hjudge : Idle e (e.judgeForkchoice a state attributes) := by
    unfold judgeForkchoice
    split
    · exact idle_answer _
    · refine (hhead state.head).after ?_
      split <;> rfl
  refine (hjudge.after rfl).followedBy ?_
  unfold forkchoiceCounters
  split <;> rfl

/-- Only payloads are ever condemned or executed. -/
theorem idle_handle (h : ∀ payload, input ≠ .newPayload payload) : Idle e (e.handle a input) := by
  cases input with
  | newPayload payload => exact absurd rfl (h payload)
  | forkchoice state attributes => exact idle_forkchoiceUpdated e a state attributes
  | getPayload id =>
    dsimp only [handle, getPayload]
    split
    · exact ⟨rfl, rfl⟩
    · exact ⟨rfl, rfl⟩
  | rejected => exact ⟨rfl, rfl⟩

/-- What is condemned is recorded at the end of the registry. -/
theorem Condemns.entries_handle {b : BadBlock} (h : Condemns e a input b) :
    (e.handle a input).badBlocks.entries = e.badBlocks.entries ++ [b] := by
  cases h with
  | notDescended examined younger =>
    rw [handle, badBlocks_mapResult, (newPayload_of_examined examined).1]
    unfold judge
    rw [if_neg (UInt64.not_le.mpr younger), if_neg Bool.false_ne_true]
    exact BadBlocks.entries_record_of_not_contains examined.unrecorded
  | failed examined younger fails =>
    rw [handle, badBlocks_mapResult, (newPayload_of_examined examined).1]
    unfold judge
    rw [if_neg (UInt64.not_le.mpr younger), if_pos rfl]
    dsimp only [execute]
    rw [fails]
    exact BadBlocks.entries_record_of_not_contains examined.unrecorded

/-- What is condemned is answered as invalid, with the ancestor of its record; where there is none,
the zero hash stands for it. -/
theorem Condemns.result_handle {b : BadBlock} (h : Condemns e a input b) :
    ∃ reason, (e.handle a input).result = .ok (.status
      (.invalid (some (b.latestValidHash.getD (.zero 32))) (some reason))) := by
  cases h with
  | @notDescended payload block parent ancestor examined younger =>
    refine ⟨Engine.notDescended block.hash, ?_⟩
    rw [handle, result_mapResult, newPayload, result_followedBy, result_reply_after,
      judgePayload_of_examined examined, result_reply_after]
    unfold judge
    rw [if_neg (UInt64.not_le.mpr younger), if_neg Bool.false_ne_true]
    rfl
  | @failed payload block parent ancestor reason examined younger fails =>
    refine ⟨reason, ?_⟩
    rw [handle, result_mapResult, newPayload, result_followedBy, result_reply_after,
      judgePayload_of_examined examined, result_reply_after]
    unfold judge
    rw [if_neg (UInt64.not_le.mpr younger), if_pos rfl]
    dsimp only [execute]
    rw [fails]
    rfl

/-- What is to be executed is executed, once. -/
theorem Executes.executed_handle {block : Block} (h : Executes e a input block) :
    (e.handle a input).executed = [block] := by
  obtain ⟨examined, younger⟩ := h
  rw [handle, executed_mapResult, (newPayload_of_examined examined).2]
  unfold judge
  rw [if_neg (UInt64.not_le.mpr younger), if_pos rfl]
  dsimp only [execute]
  cases a.process block with
  | error f => rfl
  | ok outcome => cases outcome <;> rfl

/-- A verdict records and executes nothing unless the block is younger than its parent. -/
theorem idle_judge_of_not_younger {block : Block} {parent : SealedHeader} (descends : Bool)
    (ancestor : Option Hash)
    (h : ¬ parent.header.timestamp < block.header.header.timestamp) :
    Idle e (e.judge a block parent descends ancestor) := by
  unfold judge
  rw [if_pos (UInt64.not_lt.mp h)]
  exact idle_answer _

/-- A verdict records and executes nothing while the ancestor of a block is not known. -/
theorem idle_judge_none (block : Block) (parent : SealedHeader) :
    Idle e (e.judge a block parent true none) := by
  unfold judge
  split
  · exact idle_answer _
  · exact idle_answer _

/-- Unless an input has a block executed, nothing is executed. -/
theorem executes_or_executed_handle (e : Engine) (a : Answers) (input : Input) :
    (∃ block, Executes e a input block) ∨ (e.handle a input).executed = [] := by
  by_cases hinput : ∃ payload, input = .newPayload payload
  · obtain ⟨payload, rfl⟩ := hinput
    rcases judgePayload_cases e a payload with ⟨block, parent, descends, ancestor, hex⟩ | hidle
    · rw [handle, executed_mapResult, (newPayload_of_examined hex).2]
      by_cases hyounger : parent.header.timestamp < block.header.header.timestamp
      · cases descends with
        | false =>
          right
          unfold judge
          rw [if_neg (UInt64.not_le.mpr hyounger), if_neg Bool.false_ne_true]
          rfl
        | true =>
          cases ancestor with
          | none => exact .inr (idle_judge_none block parent).2
          | some ancestor => exact .inl ⟨block, .examined hex hyounger⟩
      · exact .inr (idle_judge_of_not_younger descends ancestor hyounger).2
    · exact .inr hidle.newPayload.2
  · exact .inr (idle_handle fun payload h => hinput ⟨payload, h⟩).2

/-- Unless an input condemns a block, the registry stays as it is. -/
theorem condemns_or_badBlocks_handle (e : Engine) (a : Answers) (input : Input) :
    (∃ b, Condemns e a input b) ∨ (e.handle a input).badBlocks = e.badBlocks := by
  by_cases hinput : ∃ payload, input = .newPayload payload
  · obtain ⟨payload, rfl⟩ := hinput
    rcases judgePayload_cases e a payload with ⟨block, parent, descends, ancestor, hex⟩ | hidle
    · rw [handle, badBlocks_mapResult, (newPayload_of_examined hex).1]
      by_cases hyounger : parent.header.timestamp < block.header.header.timestamp
      · cases descends with
        | false => exact .inl ⟨_, .notDescended hex hyounger⟩
        | true =>
          cases ancestor with
          | none => exact .inr (idle_judge_none block parent).1
          | some ancestor =>
            by_cases hfails : ∃ reason, a.process block = .ok (.failure reason)
            · obtain ⟨reason, hfails⟩ := hfails
              exact .inl ⟨_, .failed hex hyounger hfails⟩
            · right
              unfold judge
              rw [if_neg (UInt64.not_le.mpr hyounger), if_pos rfl]
              dsimp only [execute]
              split
              · rfl
              · rfl
              · rfl
              · next reason heq => exact absurd ⟨reason, heq⟩ hfails
      · exact .inr (idle_judge_of_not_younger descends ancestor hyounger).1
    · exact .inr hidle.newPayload.1
  · exact .inr (idle_handle fun payload h => hinput ⟨payload, h⟩).1

/-- **What one input adds to the registry**: exactly what it condemns, which is at most one
record. -/
theorem exists_added_handle (e : Engine) (a : Answers) (input : Input) :
    ∃ added, (e.handle a input).badBlocks.entries = e.badBlocks.entries ++ added ∧
      added.length ≤ 1 ∧ ∀ b, b ∈ added ↔ Condemns e a input b := by
  rcases condemns_or_badBlocks_handle e a input with ⟨c, hc⟩ | hsame
  · refine ⟨[c], hc.entries_handle, Nat.le_refl 1, ?_⟩
    intro b
    constructor
    · intro hb
      rwa [List.mem_singleton.mp hb]
    · intro hb
      have hentries := hb.entries_handle
      rw [hc.entries_handle] at hentries
      simpa using hentries.symm
  · refine ⟨[], ?_, Nat.zero_le 1, ?_⟩
    · rw [hsame, List.append_nil]
    · intro b
      constructor
      · intro hb
        exact absurd hb List.not_mem_nil
      · intro hb
        have hentries := hb.entries_handle
        rw [hsame] at hentries
        exact absurd hentries (by simp)

/-- **What one input has executed**: exactly what it is to have executed, which is at most one
block. -/
theorem mem_executed_handle_iff (e : Engine) (a : Answers) (input : Input) :
    (e.handle a input).executed.length ≤ 1 ∧
      ∀ block, block ∈ (e.handle a input).executed ↔ Executes e a input block := by
  rcases executes_or_executed_handle e a input with ⟨c, hc⟩ | hnone
  · rw [hc.executed_handle]
    refine ⟨Nat.le_refl 1, ?_⟩
    intro block
    constructor
    · intro h
      rwa [List.mem_singleton.mp h]
    · intro h
      have hexecuted := h.executed_handle
      rw [hc.executed_handle] at hexecuted
      simpa using hexecuted.symm
  · rw [hnone]
    refine ⟨Nat.zero_le 1, ?_⟩
    intro block
    constructor
    · intro h
      exact absurd h List.not_mem_nil
    · intro h
      have hexecuted := h.executed_handle
      rw [hnone] at hexecuted
      exact absurd hexecuted (by simp)

/-- A call that fails leaves the registry as it is. -/
theorem badBlocks_handle_of_error {error : CallError}
    (h : (e.handle a input).result = .error error) :
    (e.handle a input).badBlocks = e.badBlocks := by
  rcases condemns_or_badBlocks_handle e a input with ⟨b, hb⟩ | hsame
  · obtain ⟨reason, hresult⟩ := hb.result_handle
    rw [hresult] at h
    cases h
  · exact hsame

/-- A payload that is no block leaves the registry as it is. -/
theorem badBlocks_handle_of_toBlock_error {payload : Payload} {error : Payload.ConversionError}
    (h : payload.toBlock e.maxExtraData = .error error) :
    (e.handle a (.newPayload payload)).badBlocks = e.badBlocks := by
  rcases condemns_or_badBlocks_handle e a (.newPayload payload) with ⟨b, hb⟩ | hsame
  · cases hb with
    | notDescended examined _ =>
      rw [examined.converts] at h
      cases h
    | failed examined _ _ =>
      rw [examined.converts] at h
      cases h
  · exact hsame

/-- A registry has one record for a hash. -/
theorem eq_of_hash_eq (r : BadBlocks) {b c : BadBlock} (hb : b ∈ r.entries) (hc : c ∈ r.entries)
    (h : b.id.hash = c.id.hash) : b = c :=
  List.inj_on_of_nodup_map r.nodup hb hc h

/-! ### Sessions -/

/-- One input only adds at the end of the registry. -/
theorem entries_prefix_handle (e : Engine) (a : Answers) (input : Input) :
    e.badBlocks.entries <+: (e.handle a input).badBlocks.entries := by
  obtain ⟨added, hentries, -⟩ := exists_added_handle e a input
  exact ⟨added, hentries.symm⟩

/-- **Records are never removed or altered.** -/
theorem entries_prefix_after (e : Engine) (session : Session) :
    e.badBlocks.entries <+: (e.after session).badBlocks.entries := by
  induction session generalizing e with
  | nil => exact List.prefix_rfl
  | cons x session ih =>
    exact (entries_prefix_handle e x.1 x.2).trans (ih (e.afterReply (e.handle x.1 x.2)))

/-- What one input leaves in the registry. -/
theorem mem_entries_handle_iff (e : Engine) (a : Answers) (input : Input) (b : BadBlock) :
    b ∈ (e.handle a input).badBlocks.entries ↔ b ∈ e.badBlocks.entries ∨ Condemns e a input b := by
  obtain ⟨added, hentries, -, hadded⟩ := exists_added_handle e a input
  rw [hentries, List.mem_append, hadded]

/-- **What a session leaves in the registry**: what was there before, and what its inputs
condemned. -/
theorem mem_entries_after_iff (e : Engine) (session : Session) (b : BadBlock) :
    b ∈ (e.after session).badBlocks.entries ↔ b ∈ e.badBlocks.entries ∨
      ∃ earlier a input later, session = earlier ++ (a, input) :: later ∧
        Condemns (e.after earlier) a input b := by
  induction session generalizing e with
  | nil => simp
  | cons x session ih =>
    obtain ⟨a, input⟩ := x
    rw [after_cons, ih, badBlocks_afterReply, mem_entries_handle_iff, or_assoc]
    apply or_congr_right
    constructor
    · rintro (hb | ⟨earlier, a', input', later, rfl, hb⟩)
      · exact ⟨[], a, input, session, rfl, hb⟩
      · exact ⟨(a, input) :: earlier, a', input', later, rfl, hb⟩
    · rintro ⟨earlier, a', input', later, hsplit, hb⟩
      cases earlier with
      | nil =>
        obtain ⟨⟨rfl, rfl⟩, rfl⟩ := by simpa using hsplit
        exact .inl hb
      | cons y earlier =>
        obtain ⟨rfl, rfl⟩ := List.cons.inj hsplit
        exact .inr ⟨earlier, a', input', later, rfl, hb⟩

/-- **The registry of bad blocks is exact.** Take any engine, any session, and one input more with
any answers of the surroundings.

* That input adds to the registry exactly what it condemns, which is at most one record.
* It has exactly the block executed that passed all stages, descends from the terminal block and
  has a known ancestor, once.
* No later session removes or alters a record, and no hash has two records.
* All that is in the registry was there at the beginning or was condemned by an input on the way.
* An input that ends in a fault, a payload that is no block, and an input that is no payload leave
  the registry as it is. -/
theorem badBlocks_exact (e : Engine) (session : Session) (a : Answers) (input : Input) :
    let before := e.after session
    let reply := before.handle a input
    (∃ added, reply.badBlocks.entries = before.badBlocks.entries ++ added ∧ added.length ≤ 1 ∧
      ∀ b, b ∈ added ↔ Condemns before a input b) ∧
    (reply.executed.length ≤ 1 ∧ ∀ block, block ∈ reply.executed ↔ Executes before a input block) ∧
    (∀ later, reply.badBlocks.entries <+:
      ((before.afterReply reply).after later).badBlocks.entries) ∧
    (∀ b ∈ reply.badBlocks.entries, ∀ c ∈ reply.badBlocks.entries,
      b.id.hash = c.id.hash → b = c) ∧
    (∀ b, b ∈ before.badBlocks.entries ↔ b ∈ e.badBlocks.entries ∨
      ∃ earlier a' input' later, session = earlier ++ (a', input') :: later ∧
        Condemns (e.after earlier) a' input' b) ∧
    (∀ error, reply.result = .error error → reply.badBlocks = before.badBlocks) ∧
    (∀ payload error, input = .newPayload payload →
      payload.toBlock before.maxExtraData = .error error → reply.badBlocks = before.badBlocks) ∧
    ((∀ payload, input ≠ .newPayload payload) → reply.badBlocks = before.badBlocks) := by
  intro before reply
  refine ⟨exists_added_handle before a input, mem_executed_handle_iff before a input,
    entries_prefix_after (before.afterReply reply), ?_, mem_entries_after_iff e session, ?_, ?_, ?_⟩
  · intro b hb c hc h
    exact eq_of_hash_eq reply.badBlocks hb hc h
  · intro error h
    exact badBlocks_handle_of_error h
  · rintro payload error rfl h
    exact badBlocks_handle_of_toBlock_error h
  · intro h
    exact (idle_handle h).1

end ExecutionNode.Engine
