import ExecutionNode.Proofs.Engine.Session

/-!
# How far a payload gets

`Examined` says that a payload passed everything that comes before its verdict: it is a block, it
is neither recorded nor stored, the initial sync is over, its parent is stored, and the resolver
told descent and ancestor.  A payload that gets that far is judged on timestamps, descent and
ancestor (`judgePayload_of_examined`); for every other payload the engine records nothing and has
nothing executed (`judgePayload_cases`).  So whatever is shown of `judge` decides about the
registry and the processor, and no other stage needs to be looked at again.
-/

namespace ExecutionNode.Engine

variable {e : Engine} {a : Answers} {payload : Payload} {block : Block} {parent : SealedHeader}
  {descends : Bool} {ancestor : Option Hash}

/-- A payload passed every stage before its verdict, and this is what is known about it. -/
structure Examined (e : Engine) (a : Answers) (payload : Payload) (block : Block)
    (parent : SealedHeader) (descends : Bool) (ancestor : Option Hash) : Prop where
  /-- The payload is a block. -/
  converts : payload.toBlock e.maxExtraData = .ok block
  /-- It did not fail before. -/
  unrecorded : e.badBlocks.contains block.hash = false
  /-- It is not stored. -/
  unstored : a.block block.hash = .ok none
  /-- The initial sync is over. -/
  synced : a.syncing = false
  /-- Its parent is stored. -/
  parentKnown : a.header block.header.header.parentHash = .ok (some parent)
  /-- The resolver told whether it descends from the terminal block. -/
  descent : a.descends block.header = .ok descends
  /-- The resolver told its latest valid ancestor. -/
  ancestry : a.latestValid block.header = .ok ancestor

/-- The block that a call has executed. -/
def Call.processed? : Call → Option Block
  | .process block => some block
  | _ => none

/-- The blocks that the engine has executed while it serves an input. -/
def Reply.executed {ε α : Type} (r : Reply ε α) : List Block := r.calls.filterMap Call.processed?

/-- The questions that are asked before a verdict. -/
def examination (block : Block) : List Call :=
  [.readBlock block.hash, .askSyncing, .readHeader block.header.header.parentHash,
    .askDescends block.header, .askLatestValid block.header]

section executed

variable {ε α β : Type}

/-- Calls in front of a reply add what they have executed. -/
theorem executed_after (r : Reply ε α) {calls : List Call}
    (h : calls.filterMap Call.processed? = []) : (r.after calls).executed = r.executed := by
  rw [Reply.executed, calls_reply_after, List.filterMap_append, h, List.nil_append, Reply.executed]

/-- Calls behind a reply add what they have executed. -/
theorem executed_followedBy (r : Reply ε α) {calls : List Call}
    (h : calls.filterMap Call.processed? = []) : (r.followedBy calls).executed = r.executed := by
  rw [Reply.executed, calls_followedBy, List.filterMap_append, h, List.append_nil, Reply.executed]

/-- The form of a result does not matter for what was executed. -/
@[simp] theorem executed_mapResult (f : Except ε α → Except ε β) (r : Reply ε α) :
    (r.mapResult f).executed = r.executed := rfl

end executed

/-- An examined payload is judged on timestamps, descent and ancestor. -/
theorem judgePayload_of_examined (h : Examined e a payload block parent descends ancestor) :
    e.judgePayload a payload =
      (e.judge a block parent descends ancestor).after (examination block) := by
  have hfresh : e.badBlocks.status? block.hash = none :=
    BadBlocks.status?_eq_none_iff.mpr h.unrecorded
  simp [judgePayload, admission, findParent, resolve, reading, h.converts, hfresh, h.unstored,
    h.synced, h.parentKnown, h.descent, h.ancestry, Reply.after, examination]

/-- A reply that records nothing and has nothing executed. -/
def Idle (e : Engine) {ε α : Type} (r : Reply ε α) : Prop :=
  r.badBlocks = e.badBlocks ∧ r.executed = []

/-- Questions in front of an idle reply leave it idle. -/
theorem Idle.after {ε α : Type} {r : Reply ε α} (h : Idle e r) {calls : List Call}
    (hcalls : calls.filterMap Call.processed? = []) : Idle e (r.after calls) :=
  ⟨h.1, by rw [executed_after r hcalls, h.2]⟩

/-- Counting behind an idle reply leaves it idle. -/
theorem Idle.followedBy {ε α : Type} {r : Reply ε α} (h : Idle e r) {calls : List Call}
    (hcalls : calls.filterMap Call.processed? = []) : Idle e (r.followedBy calls) :=
  ⟨h.1, by rw [executed_followedBy r hcalls, h.2]⟩

/-- A status that is told right away comes idly. -/
theorem idle_answer {ε α : Type} (x : α) : Idle e (e.answer x : Reply ε α) := ⟨rfl, rfl⟩

/-- A fault that ends a call comes idly. -/
theorem idle_fail {ε α : Type} (x : ε) : Idle e (e.fail x : Reply ε α) := ⟨rfl, rfl⟩

/-- A payload that is no block is answered idly. -/
theorem idle_malformed (parentHash : Hash) (error : Payload.ConversionError) :
    Idle e (e.malformed a parentHash error) := by
  unfold malformed
  split
  · exact idle_answer _
  · refine Idle.after ?_ rfl
    unfold reading
    split
    · exact idle_fail _
    · exact idle_answer _
  · exact idle_answer _

/-- The resolver's answers are the last that a verdict waits for. -/
theorem resolve_cases (e : Engine) (a : Answers) (block : Block) (parent : SealedHeader) :
    (∃ descends ancestor, a.descends block.header = .ok descends ∧
      a.latestValid block.header = .ok ancestor) ∨ Idle e (e.resolve a block parent) := by
  unfold resolve reading
  cases hd : a.descends block.header with
  | error error => exact .inr ((idle_fail _).after rfl)
  | ok descends =>
    cases ha : a.latestValid block.header with
    | error error => exact .inr (((idle_fail _).after rfl).after rfl)
    | ok ancestor => exact .inl ⟨descends, ancestor, rfl, rfl⟩

/-- A block gets to the resolver if its parent is stored. -/
theorem findParent_cases (e : Engine) (a : Answers) (block : Block) :
    (∃ parent descends ancestor, a.header block.header.header.parentHash = .ok (some parent) ∧
      a.descends block.header = .ok descends ∧ a.latestValid block.header = .ok ancestor) ∨
      Idle e (e.findParent a block) := by
  dsimp only [findParent, reading]
  cases hparent : a.header block.header.header.parentHash with
  | error error => exact .inr ((idle_fail _).after rfl)
  | ok known =>
    cases known with
    | none => exact .inr (((idle_answer _).after rfl).after rfl)
    | some parent =>
      rcases resolve_cases e a block parent with ⟨descends, ancestor, hd, ha⟩ | hidle
      · exact .inl ⟨parent, descends, ancestor, rfl, hd, ha⟩
      · exact .inr (hidle.after rfl)

/-- A block gets to its parent if it is not stored and the initial sync is over. -/
theorem admission_cases (e : Engine) (a : Answers) (block : Block) :
    (∃ parent descends ancestor, a.block block.hash = .ok none ∧ a.syncing = false ∧
      a.header block.header.header.parentHash = .ok (some parent) ∧
      a.descends block.header = .ok descends ∧ a.latestValid block.header = .ok ancestor) ∨
      Idle e (e.admission a block) := by
  dsimp only [admission, reading]
  cases hstored : a.block block.hash with
  | error error => exact .inr ((idle_fail _).after rfl)
  | ok stored =>
    cases stored with
    | some _ => exact .inr ((idle_answer _).after rfl)
    | none =>
      cases hsync : a.syncing with
      | true => exact .inr (((idle_answer _).after rfl).after rfl)
      | false =>
        rcases findParent_cases e a block with ⟨parent, descends, ancestor, hp, hd, ha⟩ | hidle
        · exact .inl ⟨parent, descends, ancestor, rfl, rfl, hp, hd, ha⟩
        · exact .inr ((hidle.after rfl).after rfl)

/-- **A payload is examined to the end or answered idly.** -/
theorem judgePayload_cases (e : Engine) (a : Answers) (payload : Payload) :
    (∃ block parent descends ancestor, Examined e a payload block parent descends ancestor) ∨
      Idle e (e.judgePayload a payload) := by
  unfold judgePayload
  cases hconv : payload.toBlock e.maxExtraData with
  | error error => exact .inr (idle_malformed _ _)
  | ok block =>
    dsimp only
    cases hstatus : e.badBlocks.status? block.hash with
    | some status => exact .inr (idle_answer _)
    | none =>
      have hfresh := BadBlocks.status?_eq_none_iff.mp hstatus
      rcases admission_cases e a block with
        ⟨parent, descends, ancestor, hstored, hsync, hp, hd, ha⟩ | hidle
      · exact .inl ⟨block, parent, descends, ancestor, hconv, hfresh, hstored, hsync, hp, hd, ha⟩
      · exact .inr hidle

/-- A recorded block is answered from its record, whatever the surroundings would say. -/
theorem judgePayload_of_status? {status : PayloadStatus}
    (hconv : payload.toBlock e.maxExtraData = .ok block)
    (h : e.badBlocks.status? block.hash = some status) :
    e.judgePayload a payload = e.answer status := by
  simp [judgePayload, hconv, h]

end ExecutionNode.Engine
