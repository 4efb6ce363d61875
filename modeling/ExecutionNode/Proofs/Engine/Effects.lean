import ExecutionNode.Proofs.Engine.Judging
import ExecutionNode.Proofs.Engine.Permanence

/-!
# What a forkchoice state sets going

A forkchoice state has effects outside of the engine: it is passed on to a listener, the chain up to
its head may be fetched, and a payload may be built on the head.  Each of them happens once or not
at all, and exactly when it should.

* `Heeded` lists the exits of following a forkchoice state, each with its guards, its result and
  what was done on the way.  `exists_heeded` is the only proof that looks into the stages; the
  effects are read off the exits.
* `Effects` says of the reply to a proposal what was set going, and when (`effects_reply`).
* No forkchoice state changes the engine (`afterReply_reply`), so in a sequence of them each is
  answered by the same engine (`replies_eq_map`).
* Nothing else that the engine is asked is passed on (`announced_handle`).

`forkchoice_effects_exact` puts these together for sequences.
-/

namespace ExecutionNode.Engine

/-! ### Effects -/

/-- The forkchoice state that a call passes on. -/
def Call.announced? : Call → Option ForkchoiceState
  | .announce state => some state
  | _ => none

/-- The hash up to which a call has the chain fetched. -/
def Call.fetched? : Call → Option Hash
  | .syncToHead hash => some hash
  | _ => none

/-- The parent and the attributes for which a call has a payload built. -/
def Call.begun? : Call → Option (Hash × PayloadAttributes)
  | .startPayload parent attributes => some (parent, attributes)
  | _ => none

/-- The block that a call hands to backward sync. -/
def Call.appended? : Call → Option Block
  | .append block => some block
  | _ => none

namespace Reply

variable {ε α : Type} (r : Reply ε α)

/-- The forkchoice states that were passed on. -/
def announced : List ForkchoiceState := r.calls.filterMap Call.announced?

/-- The hashes up to which the chain is fetched. -/
def fetched : List Hash := r.calls.filterMap Call.fetched?

/-- What payloads are built for. -/
def begun : List (Hash × PayloadAttributes) := r.calls.filterMap Call.begun?

/-- The blocks that were handed to backward sync. -/
def appended : List Block := r.calls.filterMap Call.appended?

end Reply

/-! ### The exits -/

variable {e : Engine} {a : Answers} {state : ForkchoiceState}
  {attributes : Option PayloadAttributes}

/-- A head is looked for in the store. -/
structure Sought (e : Engine) (a : Answers) (head : Hash) : Prop where
  /-- There is one. -/
  nonzero : head.isZero = false
  /-- It did not fail before. -/
  unrecorded : e.badBlocks.contains head = false
  /-- The initial sync is over. -/
  synced : a.syncing = false

/-- A payload can be built on a head for attributes that came along. -/
structure Buildable (e : Engine) (header : SealedHeader) (attributes : Option PayloadAttributes)
    (wanted : PayloadAttributes) : Prop where
  /-- There is a builder. -/
  builds : e.buildsPayloads = true
  /-- The attributes came along. -/
  given : attributes = some wanted
  /-- They make the payload younger than the head. -/
  younger : header.header.timestamp < wanted.timestamp

/-- The results of following a forkchoice state with what is done after it was passed on, one
constructor for each exit. -/
inductive Heeded (e : Engine) (a : Answers) (state : ForkchoiceState)
    (attributes : Option PayloadAttributes) :
    Except CallError ForkchoiceUpdated → List Call → Prop where
  /-- There is no head. -/
  | headless (zero : state.head.isZero = true) :
      Heeded e a state attributes (.ok (.ofStatus (.invalid none (some zeroHead)))) []
  /-- The head failed before. -/
  | recorded {b : BadBlock} (record : e.badBlocks.find? state.head = some b) :
      Heeded e a state attributes (.ok (.ofStatus (.invalid (some b.shownHash) b.text?))) []
  /-- The initial sync runs. -/
  | waiting (syncing : a.syncing = true) :
      Heeded e a state attributes (.ok (.ofStatus .syncing)) [.askSyncing]
  /-- The header of the head could not be read. -/
  | unreadable {cause : ReadError} (read : a.header state.head = .error cause) :
      Heeded e a state attributes (.error (.provider cause)) [.askSyncing, .readHeader state.head]
  /-- The head is not known. -/
  | unknown (sought : Sought e a state.head) (read : a.header state.head = .ok none) :
      Heeded e a state attributes (.ok (.ofStatus .syncing))
        [.askSyncing, .readHeader state.head, .syncToHead state.head]
  /-- The head is known, and no payload is built on it. -/
  | known {header : SealedHeader} (read : a.header state.head = .ok (some header))
      (unbuildable : ∀ wanted, ¬ Buildable e header attributes wanted) :
      Heeded e a state attributes (.ok (.ofStatus (.valid state.head)))
        [.askSyncing, .readHeader state.head]
  /-- The head is known, and the builder is asked for a payload on it. -/
  | building {header : SealedHeader} {wanted : PayloadAttributes}
      (read : a.header state.head = .ok (some header))
      (buildable : Buildable e header attributes wanted) :
      Heeded e a state attributes
        (.ok ⟨.valid state.head, (a.startPayload state.head wanted).toOption⟩)
        [.askSyncing, .readHeader state.head, .startPayload state.head wanted]

/-- When the builder is asked for a payload. -/
theorem buildable_iff {header : SealedHeader} {wanted : PayloadAttributes} :
    (e.buildsPayloads && !(wanted.timestamp ≤ header.header.timestamp)) = true ↔
      Buildable e header (some wanted) wanted := by
  rw [Bool.and_eq_true, Bool.not_eq_true', decide_eq_false_iff_not, UInt64.not_le]
  exact ⟨fun h => ⟨h.1, rfl, h.2⟩, fun h => ⟨h.builds, h.younger⟩⟩

/-- The exits behind a known head. -/
theorem heeded_startBuilding (e : Engine) (attributes : Option PayloadAttributes)
    {header : SealedHeader} (read : a.header state.head = .ok (some header)) :
    ∃ result calls, Heeded e a state attributes result
        ([.askSyncing, .readHeader state.head] ++ calls) ∧
      e.startBuilding a header state.head attributes = ⟨result, e.badBlocks, calls⟩ := by
  unfold startBuilding
  cases attributes with
  | none => exact ⟨_, _, .known read (fun _ h => nomatch h.given), rfl⟩
  | some wanted =>
    dsimp only
    split
    next h => exact ⟨_, _, .building read (buildable_iff.mp h), rfl⟩
    next h =>
      refine ⟨_, _, .known read fun other hbuild => ?_, rfl⟩
      obtain rfl : wanted = other := Option.some.inj hbuild.given
      exact h (buildable_iff.mpr hbuild)

/-- The exits of a state with a head. -/
theorem heeded_judgeHead (e : Engine) (a : Answers) (attributes : Option PayloadAttributes)
    (nonzero : state.head.isZero = false) :
    ∃ result calls, Heeded e a state attributes result calls ∧
      e.judgeHead a state.head attributes = ⟨result, e.badBlocks, calls⟩ := by
  unfold judgeHead
  cases hfind : e.badBlocks.find? state.head with
  | some b =>
    rw [status?_of_find? hfind]
    exact ⟨_, _, .recorded hfind, rfl⟩
  | none =>
    have hfresh : e.badBlocks.contains state.head = false := by
      rw [BadBlocks.contains, hfind]
      rfl
    rw [BadBlocks.status?_eq_none_iff.mpr hfresh]
    dsimp only
    cases hsync : a.syncing with
    | true => exact ⟨_, _, .waiting hsync, rfl⟩
    | false =>
      cases hread : a.header state.head with
      | error cause => exact ⟨_, _, .unreadable hread, rfl⟩
      | ok found =>
        cases found with
        | none => exact ⟨_, _, .unknown ⟨nonzero, hfresh, hsync⟩ hread, rfl⟩
        | some header =>
          obtain ⟨result, calls, hheeded, hreply⟩ :=
            heeded_startBuilding e attributes hread
          refine ⟨result, _, hheeded, ?_⟩
          dsimp only [reading]
          rw [if_neg Bool.false_ne_true, hreply]
          rfl

/-- The call by which a state with a head is passed on. -/
def announcement (e : Engine) (state : ForkchoiceState) : List Call :=
  if e.announces && !state.head.isZero then [.announce state] else []

/-- **Every forkchoice state takes one of the exits**, after it was passed on, and changes
nothing in the engine. -/
theorem exists_heeded (e : Engine) (a : Answers) (state : ForkchoiceState)
    (attributes : Option PayloadAttributes) :
    ∃ result calls, Heeded e a state attributes result calls ∧
      e.forkchoiceUpdated a state attributes = ⟨result, e.badBlocks,
        .signal :: (e.announcement state ++ calls ++ forkchoiceCounters result)⟩ := by
  unfold forkchoiceUpdated judgeForkchoice announcement
  cases hzero : state.head.isZero with
  | true => exact ⟨_, _, .headless hzero, by rw [Bool.not_true, Bool.and_false]; rfl⟩
  | false =>
    obtain ⟨result, calls, hheeded, hreply⟩ :=
      heeded_judgeHead e a attributes hzero
    refine ⟨result, calls, hheeded, ?_⟩
    rw [if_neg Bool.false_ne_true, hreply, Bool.not_false, Bool.and_true]
    rfl

/-! ### What is set going -/

/-- A forkchoice state with the attributes that come along, and what the surroundings answer while
it is followed. -/
structure Proposal where
  /-- What the surroundings answer. -/
  answers : Answers
  /-- The forkchoice state. -/
  state : ForkchoiceState
  /-- The attributes. -/
  attributes : Option PayloadAttributes

namespace Proposal

/-- The reply to a proposal. -/
def reply (e : Engine) (p : Proposal) : Reply CallError ForkchoiceUpdated :=
  e.forkchoiceUpdated p.answers p.state p.attributes

/-- A proposal as a turn of a session. -/
def turn (p : Proposal) : Answers × Input := (p.answers, .forkchoice p.state p.attributes)

/-- The head of a proposal is looked for and not known. -/
structure IsLost (e : Engine) (p : Proposal) : Prop where
  /-- It is looked for. -/
  sought : Sought e p.answers p.state.head
  /-- It is not known. -/
  unknown : p.answers.header p.state.head = .ok none

/-- The head of a proposal is called valid, and a payload can be built on it. -/
structure Invites (e : Engine) (p : Proposal) (result : Except CallError ForkchoiceUpdated)
    (wanted : PayloadAttributes) : Prop where
  /-- The head is called valid. -/
  valid : ∃ updated, result = .ok updated ∧ updated.status.verdict = .valid
  /-- A payload can be built on it. -/
  buildable : ∃ header, p.answers.header p.state.head = .ok (some header) ∧
    Buildable e header p.attributes wanted

end Proposal

/-- What a reply to a proposal sets going, and when. -/
structure Effects (e : Engine) (p : Proposal) (r : Reply CallError ForkchoiceUpdated) : Prop where
  /-- A state with a head is passed on once, whatever comes of it, and no other is. -/
  announced : r.announced = if e.announces && !p.state.head.isZero then [p.state] else []
  /-- The chain is fetched up to a head that is looked for and not known, once. -/
  fetched : (p.IsLost e ∧ r.fetched = [p.state.head]) ∨ (¬ p.IsLost e ∧ r.fetched = [])
  /-- A payload is built on a valid head if the attributes allow it, once. -/
  begun : (∃ wanted, p.Invites e r.result wanted ∧ r.begun = [(p.state.head, wanted)]) ∨
    ((∀ wanted, ¬ p.Invites e r.result wanted) ∧ r.begun = [])
  /-- A payload is named if the builder was asked and gave a name, and by that name. -/
  named : ∀ updated, r.result = .ok updated → ∀ id, updated.payloadId = some id ↔
    ∃ wanted, r.begun = [(p.state.head, wanted)] ∧
      p.answers.startPayload p.state.head wanted = .ok id
  /-- The registry stays as it is. -/
  registry : r.badBlocks = e.badBlocks
  /-- Nothing is executed. -/
  executed : r.executed = []
  /-- No block is handed to backward sync. -/
  appended : r.appended = []

section effects

variable {result : Except CallError ForkchoiceUpdated} {calls : List Call}

/-- Behind the announcement, and besides fetching and building, an exit only asks. -/
theorem Heeded.announced (h : Heeded e a state attributes result calls) :
    calls.filterMap Call.announced? = [] ∧ calls.filterMap Call.processed? = [] ∧
      calls.filterMap Call.appended? = [] := by
  cases h <;> exact ⟨rfl, rfl, rfl⟩

/-- The chain is fetched in one exit, that of a head which is not known. -/
theorem Heeded.fetched {p : Proposal} (h : Heeded e p.answers p.state p.attributes result calls) :
    (p.IsLost e ∧ calls.filterMap Call.fetched? = [p.state.head]) ∨
      (¬ p.IsLost e ∧ calls.filterMap Call.fetched? = []) := by
  have hread {found : Except ReadError (Option SealedHeader)}
      (hfound : p.answers.header p.state.head = found) (hsome : found ≠ .ok none) :
      ¬ p.IsLost e := fun hlost => hsome (hfound.symm.trans hlost.unknown)
  cases h with
  | headless zero =>
    exact .inr ⟨fun hlost => Bool.false_ne_true (hlost.sought.nonzero.symm.trans zero), rfl⟩
  | recorded record =>
    refine .inr ⟨fun hlost => ?_, rfl⟩
    have hfresh := hlost.sought.unrecorded
    rw [BadBlocks.contains, record] at hfresh
    cases hfresh
  | waiting syncing =>
    exact .inr ⟨fun hlost => Bool.false_ne_true (hlost.sought.synced.symm.trans syncing), rfl⟩
  | unreadable read => exact .inr ⟨hread read (by rintro ⟨⟩), rfl⟩
  | unknown sought read => exact .inl ⟨⟨sought, read⟩, rfl⟩
  | known read unbuildable => exact .inr ⟨hread read (by rintro ⟨⟩), rfl⟩
  | building read buildable => exact .inr ⟨hread read (by rintro ⟨⟩), rfl⟩

/-- A payload is built in one exit, that of a valid head for which the attributes allow it. -/
theorem Heeded.begun {p : Proposal} (h : Heeded e p.answers p.state p.attributes result calls) :
    (∃ wanted, p.Invites e result wanted ∧
      calls.filterMap Call.begun? = [(p.state.head, wanted)]) ∨
      ((∀ wanted, ¬ p.Invites e result wanted) ∧ calls.filterMap Call.begun? = []) := by
  cases h with
  | known read unbuildable =>
    refine .inr ⟨fun wanted hinvites => ?_, rfl⟩
    obtain ⟨header, hread, hbuild⟩ := hinvites.buildable
    obtain rfl := Option.some.inj (Except.ok.inj (read.symm.trans hread))
    exact unbuildable wanted hbuild
  | building read buildable => exact .inl ⟨_, ⟨⟨_, rfl, rfl⟩, _, read, buildable⟩, rfl⟩
  | _ =>
    -- No other exit calls the head valid.
    refine .inr ⟨fun wanted hinvites => ?_, rfl⟩
    obtain ⟨updated, hresult, hvalid⟩ := hinvites.valid
    cases hresult <;> cases hvalid

/-- The builder gave a name if that is what is kept of its answer. -/
theorem toOption_eq_some_iff {ε α : Type} {answer : Except ε α} {x : α} :
    answer.toOption = some x ↔ answer = .ok x := by
  cases answer with
  | error cause => exact ⟨nofun, nofun⟩
  | ok y => exact ⟨fun h => congrArg _ (Option.some.inj h), fun h => congrArg _ (Except.ok.inj h)⟩

/-- A name comes from the builder. -/
theorem Heeded.named {p : Proposal} (h : Heeded e p.answers p.state p.attributes result calls)
    {updated : ForkchoiceUpdated} (hresult : result = .ok updated) (id : PayloadId) :
    updated.payloadId = some id ↔ ∃ wanted, calls.filterMap Call.begun? = [(p.state.head, wanted)] ∧
      p.answers.startPayload p.state.head wanted = .ok id := by
  cases h with
  | @building header wanted read buildable =>
    cases hresult
    constructor
    · exact fun hid => ⟨wanted, rfl, toOption_eq_some_iff.mp hid⟩
    · rintro ⟨other, hbegun, hid⟩
      obtain rfl : wanted = other := congrArg Prod.snd (List.head_eq_of_cons_eq hbegun)
      exact toOption_eq_some_iff.mpr hid
  | _ => cases hresult <;> exact ⟨nofun, nofun⟩

/-- **What is set going about a proposal.** -/
theorem effects_reply (e : Engine) (p : Proposal) : Effects e p (p.reply e) := by
  obtain ⟨result, calls, hheeded, hreply⟩ :=
    exists_heeded e p.answers p.state p.attributes
  have heffects {β : Type} (f : Call → Option β) (hsignal : f .signal = none)
      (hcount : ∀ counter, f (.count counter) = none) :
      (p.reply e).calls.filterMap f =
        (e.announcement p.state).filterMap f ++ calls.filterMap f := by
    have hcounters : (forkchoiceCounters result).filterMap f = [] := by
      cases result with
      | error cause => rfl
      | ok updated => exact List.filterMap_cons_none (hcount _)
    rw [Proposal.reply, hreply, List.filterMap_cons_none hsignal, List.filterMap_append,
      List.filterMap_append, hcounters, List.append_nil]
  have hpassed {β : Type} {f : Call → Option β} (h : f (.announce p.state) = none) :
      (e.announcement p.state).filterMap f = [] := by
    unfold announcement
    split
    · exact List.filterMap_cons_none h
    · rfl
  obtain ⟨hannounced, hexecuted, happended⟩ := hheeded.announced
  have hfetched := heffects Call.fetched? rfl fun _ => rfl
  have hbegun := heffects Call.begun? rfl fun _ => rfl
  rw [hpassed rfl, List.nil_append] at hfetched hbegun
  have hresult : (p.reply e).result = result := congrArg Reply.result hreply
  constructor
  · rw [Reply.announced, heffects _ rfl fun _ => rfl, hannounced, List.append_nil, announcement]
    split <;> rfl
  · rw [Reply.fetched, hfetched]
    exact hheeded.fetched
  · rw [Reply.begun, hbegun, hresult]
    exact hheeded.begun
  · intro updated hupdated id
    rw [Reply.begun, hbegun]
    exact hheeded.named (hresult.symm.trans hupdated) id
  · exact congrArg Reply.badBlocks hreply
  · rw [Reply.executed, heffects _ rfl fun _ => rfl, hpassed rfl, hexecuted, List.append_nil]
  · rw [Reply.appended, heffects _ rfl fun _ => rfl, hpassed rfl, happended, List.append_nil]

end effects

/-! ### What is passed on -/

/-- What is done to judge a payload passes nothing on. -/
theorem Call.announced?_of_judges {c : Call} (h : c.judges = true) : c.announced? = none := by
  cases c with
  | announce _ => cases h
  | _ => rfl

/-- **Of all that the engine is asked, forkchoice states with a head are passed on**, each once, if
there is someone to pass them on to. -/
theorem announced_handle (e : Engine) (a : Answers) (input : Input) :
    (e.handle a input).announced =
      match input with
      | .forkchoice state _ => if e.announces && !state.head.isZero then [state] else []
      | _ => [] := by
  cases input with
  | newPayload payload =>
    have hjudged : (e.judgePayload a payload).calls.filterMap Call.announced? = [] :=
      List.filterMap_eq_nil_iff.mpr fun c hc =>
        Call.announced?_of_judges (judges_judgePayload payload c hc)
    show (e.newPayload a payload).calls.filterMap Call.announced? = []
    rw [newPayload, calls_followedBy, calls_reply_after, List.filterMap_append,
      List.filterMap_append, hjudged]
    rfl
  | forkchoice state attributes => exact (effects_reply e ⟨a, state, attributes⟩).announced
  | getPayload id =>
    show (e.getPayload a id).calls.filterMap Call.announced? = []
    unfold getPayload
    split <;> rfl
  | rejected => rfl

/-! ### Sequences -/

/-- No proposal changes the engine. -/
theorem afterReply_reply (e : Engine) (p : Proposal) : e.afterReply (p.reply e) = e := by
  rw [afterReply, (effects_reply e p).registry]

/-- The replies to proposals, one after the other. -/
def replies (e : Engine) : List Proposal → List (Reply CallError ForkchoiceUpdated)
  | [] => []
  | p :: proposals => p.reply e :: replies (e.afterReply (p.reply e)) proposals

/-- Each proposal of a sequence is answered by the same engine. -/
theorem replies_eq_map (e : Engine) (proposals : List Proposal) :
    e.replies proposals = proposals.map (·.reply e) := by
  induction proposals with
  | nil => rfl
  | cons p proposals ih => rw [replies, afterReply_reply, ih, List.map_cons]

/-- A sequence of proposals leaves the engine as it is. -/
theorem after_proposals (e : Engine) (proposals : List Proposal) :
    e.after (proposals.map Proposal.turn) = e := by
  induction proposals with
  | nil => rfl
  | cons p proposals ih =>
    have hhandle : e.afterReply (e.handle p.turn.1 p.turn.2) = e.afterReply (p.reply e) := rfl
    rw [List.map_cons, after_cons, hhandle, afterReply_reply, ih]

/-- **The effects of forkchoice states are exact.** For every engine, whatever its registry holds,
and every sequence of forkchoice states with attributes, whatever the surroundings answer to each:

* Every state has the effects that it should have and no other (`Effects`): it is passed on exactly
  if it has a head; the chain is fetched exactly up to a head that is looked for and not known; a
  payload is built exactly on a head that is called valid and for attributes that make it younger,
  and it is named in the answer exactly if the builder gave a name, by that name.
* All in all the states with a head are passed on, each once and in order.
* Nothing is executed, no block is handed to backward sync, and the engine stays as it is. -/
theorem forkchoice_effects_exact (e : Engine) (proposals : List Proposal) :
    List.Forall₂ (Effects e) proposals (e.replies proposals) ∧
    (e.replies proposals).flatMap (·.announced) =
      (if e.announces then (proposals.map (·.state)).filter (!·.head.isZero) else []) ∧
    e.after (proposals.map Proposal.turn) = e := by
  rw [replies_eq_map]
  refine ⟨?_, ?_, after_proposals e proposals⟩
  · rw [List.forall₂_map_right_iff, List.forall₂_same]
    exact fun p _ => effects_reply e p
  · rw [List.flatMap_map]
    induction proposals with
    | nil => cases e.announces <;> rfl
    | cons p proposals ih =>
      rw [List.flatMap_cons, (effects_reply e p).announced, ih]
      cases e.announces <;> cases h : p.state.head.isZero <;> simp [h]

end ExecutionNode.Engine
