import ExecutionNode.Proofs.Engine.Effects
import ExecutionNode.Proofs.Sync.Following
import ExecutionNode.Proofs.Sync.Polling

/-!
# The safe block in force

A pivot block may be chosen by the safe block that the consensus layer announced last.  What it
announces takes a way: the engine passes forkchoice states on to the synchronizer, which passes them
on to block propagation and to the selector.  The synchronizer also closes the selector when it
hands over.  Meanwhile a search may be under way that looks at the selector from time to time.

* `Relay` is a node as far as this goes, and `Relay.Moment` is whatever may happen to it, in any
  order.  The tidings of a moment say what it means for the safe block, without the way it takes.
* `selector_after`: whatever happens, the selector knows the safe block that is in force
  (`Tiding.InForce`).
* `propagated_after`: block propagation hears of all that is announced to the synchronizer.
* `search_after`: a search comes to what its polls see in force.
* `safeBlock_latest` puts this together.  A search whose deadline the clock cannot show is not
  polled at all, and comes to nothing (`timeless_search_unanswered`).
-/

namespace ExecutionNode.Sync

/-! ### Tidings -/

/-- What bears on the safe block. -/
inductive Tiding where
  /-- A forkchoice state was announced. -/
  | announced (state : ForkchoiceState)
  /-- What was announced is no longer needed. -/
  | closed

namespace Tiding

/-- A hash is in force: it was the last safe block that was announced, and nothing was closed since
then. -/
def InForce (tidings : List Tiding) (hash : Hash) : Prop :=
  ∃ earlier state later, tidings = earlier ++ .announced state :: later ∧
    state.hasSafe = true ∧ state.safe = hash ∧
    ∀ t ∈ later, ∃ silent, t = .announced silent ∧ silent.hasSafe = false

/-- The safe block after a tiding. -/
def update (known : Option Hash) : Tiding → Option Hash
  | announced state => if state.hasSafe then some state.safe else known
  | closed => none

/-- The safe block after tidings. At first there is none. -/
def safeBlock (tidings : List Tiding) : Option Hash := tidings.foldl update none

/-- A last tiding has its effect on what is in force. -/
theorem inForce_concat {tidings : List Tiding} {t : Tiding} {hash : Hash} :
    InForce (tidings ++ [t]) hash ↔
      match t with
      | .announced state => if state.hasSafe then state.safe = hash else InForce tidings hash
      | .closed => False := by
  constructor
  · rintro ⟨earlier, state, later, htidings, hsafe, hhash, hlater⟩
    rcases concat_eq_append_cons.mp htidings with ⟨rfl, rfl, rfl⟩ | ⟨later, rfl, rfl⟩
    · dsimp only
      rwa [if_pos hsafe]
    · rw [List.forall_mem_append] at hlater
      obtain ⟨silent, rfl, hsilent⟩ := hlater.2 t (List.mem_singleton_self t)
      dsimp only
      rw [hsilent, if_neg Bool.false_ne_true]
      exact ⟨earlier, state, later, rfl, hsafe, hhash, hlater.1⟩
  · cases t with
    | closed => exact False.elim
    | announced last =>
      dsimp only
      split
      next hsafe => exact fun hhash => ⟨tidings, last, [], rfl, hsafe, hhash, nofun⟩
      next hsilent =>
        rintro ⟨earlier, state, later, rfl, hsafe, hhash, hlater⟩
        refine ⟨earlier, state, later ++ [.announced last], ?_, hsafe, hhash, ?_⟩
        · rw [List.append_assoc, List.cons_append]
        · rw [List.forall_mem_append]
          exact ⟨hlater, List.forall_mem_singleton.mpr
            ⟨last, rfl, (Bool.not_eq_true _).mp hsilent⟩⟩

/-- **The safe block after tidings is the one in force.** -/
theorem safeBlock_eq_some_iff {tidings : List Tiding} {hash : Hash} :
    safeBlock tidings = some hash ↔ InForce tidings hash := by
  induction tidings using List.reverseRecOn with
  | nil => exact ⟨nofun, by rintro ⟨earlier, state, later, htidings, -⟩; simp at htidings⟩
  | append_singleton tidings t ih =>
    rw [inForce_concat, safeBlock, List.foldl_append, List.foldl_cons, List.foldl_nil]
    cases t with
    | closed => exact ⟨nofun, False.elim⟩
    | announced state =>
      dsimp only [update]
      split
      · exact Option.some_inj
      · exact ih

end Tiding

/-! ### What the synchronizer passes on -/

/-- The calls by which a forkchoice state is passed on. -/
def Call.passesOn : Call → Bool
  | announceToSelector _ => true
  | announceToPropagation _ => true
  | _ => false

/-- The forkchoice state of which block propagation is told. -/
def Call.propagated? : Call → Option ForkchoiceState
  | announceToPropagation state => some state
  | _ => none

/-- A selector that chooses a safe block, and knows of one or not. -/
abbrev Selector.knowing (timeout : Duration) (known : Option Hash) : Selector :=
  .safeBlock ⟨known, timeout⟩

namespace Selector

variable {timeout : Duration} {known : Option Hash}

/-- The selector takes note of a forkchoice state. -/
theorem announce_knowing (state : ForkchoiceState) :
    (knowing timeout known).announce state =
      knowing timeout (Tiding.update known (.announced state)) := by
  unfold knowing announce SafeBlockSelector.announce Tiding.update
  dsimp only
  split <;> rfl

/-- Calls by which nothing is passed on may close the selector. -/
theorem foldl_hear_knowing {calls : List Call} (h : ∀ c ∈ calls, c.passesOn = false) :
    calls.foldl hear (knowing timeout known) =
      knowing timeout (if .closeSelector ∈ calls then none else known) := by
  induction calls generalizing known with
  | nil => rfl
  | cons c calls ih =>
    obtain ⟨hc, hcalls⟩ := List.forall_mem_cons.mp h
    rw [List.foldl_cons]
    cases c with
    | announceToSelector _ => cases hc
    | announceToPropagation _ => cases hc
    | closeSelector =>
      rw [if_pos List.mem_cons_self]
      exact (ih hcalls).trans (by rw [ite_self])
    | _ => exact (ih hcalls).trans (by simp)

end Selector

namespace Synchronizer

variable (s : Synchronizer)

/-- A forkchoice state is passed on to block propagation, if there is any, and to the selector, if
there is something to catch up with. -/
theorem newCalls_announce (state : ForkchoiceState) :
    s.newCalls (.announce state) =
      (if s.propagates then [.announceToPropagation state] else []) ++
        if s.catchUp?.isSome then [.announceToSelector state] else [] := by
  have hmakes := s.makes_newCalls (.announce state)
  generalize s.newCalls (.announce state) = calls at hmakes ⊢
  cases hmakes
  rfl

/-- To stop passes nothing on. -/
theorem passesOn_stopCalls (r : Replies) : ∀ c ∈ s.stopCalls r, c.passesOn = false := by
  unfold stopCalls
  split
  · rw [List.forall_mem_append]
    constructor <;> split <;> simp [Call.passesOn]
  · nofun

/-- To start passes nothing on. -/
theorem passesOn_startCalls (r : Replies) : ∀ c ∈ s.startCalls r, c.passesOn = false := by
  unfold startCalls
  split <;> simp [Call.passesOn]

/-- Nothing else that happens passes a forkchoice state on. -/
theorem passesOn_newCalls {a : Act} (ha : ∀ state, a ≠ .announce state) :
    ∀ c ∈ s.newCalls a, c.passesOn = false := by
  have hnotices (notices : List Notice) :
      ∀ c ∈ notices.map Call.notify, c.passesOn = false :=
    List.forall_mem_map.mpr fun _ _ => rfl
  have hmakes := s.makes_newCalls a
  generalize s.newCalls a = calls at hmakes ⊢
  cases hmakes with
  | runs => nofun
  | starts r => exact s.passesOn_startCalls r
  | stops r => exact s.passesOn_stopCalls r
  | startsOver r r' notices =>
    simp only [List.forall_mem_append, List.forall_mem_cons]
    refine ⟨⟨⟨s.passesOn_stopCalls r, ?_⟩, rfl, hnotices notices⟩, s.passesOn_startCalls r'⟩
    split <;> simp [Call.passesOn]
  | goesOn r run event _ hgoes =>
    intro c hc
    rcases hgoes c hc with hgoesOn | ⟨n, rfl⟩
    · cases c with
      | announceToSelector _ => cases hgoesOn
      | announceToPropagation _ => cases hgoesOn
      | _ => rfl
    · rfl
  | passesOn state => exact absurd rfl (ha state)
  | notifies op notices => exact hnotices notices

/-- What it means for the safe block that something happens to a synchronizer. -/
def tidings : Act → List Tiding
  | .announce state => [.announced state]
  | a => if .closeSelector ∈ s.newCalls a then [.closed] else []

/-- **The selector is told what happens**, if there is something to catch up with. -/
theorem foldl_hear_newCalls (h : s.catchUps ≠ []) (a : Act) (timeout : Duration)
    (known : Option Hash) :
    (s.newCalls a).foldl Selector.hear (.knowing timeout known) =
      .knowing timeout ((s.tidings a).foldl Tiding.update known) := by
  have hother (ha : ∀ state, a ≠ .announce state) :
      (s.newCalls a).foldl Selector.hear (.knowing timeout known) =
        .knowing timeout
          ((if .closeSelector ∈ s.newCalls a then [.closed] else []).foldl Tiding.update
            known) := by
    rw [Selector.foldl_hear_knowing (s.passesOn_newCalls ha)]
    split <;> rfl
  cases a with
  | announce state =>
    have hsome : s.catchUp?.isSome = true := by
      rw [catchUp?, List.getLast?_eq_some_getLast h]
      rfl
    rw [newCalls_announce, hsome, if_pos rfl, List.foldl_append]
    refine Eq.trans ?_ (Selector.announce_knowing state)
    split <;> rfl
  | _ => exact hother (fun _ h => by cases h)

/-- Block propagation is told of a forkchoice state that is passed on, if there is any, and of
nothing else. -/
theorem propagated_newCalls (a : Act) :
    (s.newCalls a).filterMap Call.propagated? =
      match a with
      | .announce state => if s.propagates then [state] else []
      | _ => [] := by
  have hother (ha : ∀ state, a ≠ .announce state) :
      (s.newCalls a).filterMap Call.propagated? = [] := by
    refine List.filterMap_eq_nil_iff.mpr fun c hc => ?_
    have hquiet := s.passesOn_newCalls ha c hc
    cases c with
    | announceToPropagation _ => cases hquiet
    | _ => rfl
  cases a with
  | announce state =>
    rw [newCalls_announce, List.filterMap_append]
    split <;> split <;> rfl
  | _ => exact hother nofun

/-- A step of a run does not do away with block propagation. -/
theorem Touches.propagates {s t : Synchronizer} {run : Nat} (h : Touches run s t) :
    t.propagates = s.propagates := by
  induction h with
  | nothing h => exact h.propagates
  | startPruner => rw [callIf_eq]
  | windDown s =>
    by_cases hlast : run + 1 = s.runs.length
    · rw [windDown_of_eq hlast, callIf_eq, callIf_eq]
    · rw [windDown_of_ne hlast]
  | trans _ _ ih ih' => exact ih'.trans ih

/-- Nothing does away with block propagation. -/
theorem propagates_act (a : Act) : (s.act a).propagates = s.propagates := by
  have hstart {s t : Synchronizer} {r : Replies} (ht : s.start r = .ok t) :
      t.propagates = s.propagates := by
    cases hrunning : s.running with
    | false =>
      rw [start_of_not_running hrunning] at ht
      rw [← Except.ok.inj ht, callIf_eq]
    | true => rw [start_of_running hrunning] at ht; cases ht
  cases a with
  | start r =>
    cases hs : s.start r with
    | error e => rw [act_start_of_error hs]
    | ok t => rw [act_start_of_ok hs]; exact hstart hs
  | stop r => exact s.propagates_stop r
  | resync r r' =>
    exact (hstart (s.start_discarded r r')).trans
      ((s.untouched_discarded r).propagates.trans (s.propagates_stop r))
  | step r run event => exact (s.touches_resume r run event).propagates
  | announce state => exact (s.untouched_announce state).propagates
  | operate op => rfl

end Synchronizer

/-! ### The way of an announcement -/

/-- A node, as far as announcements of the consensus layer go: an engine that passes them on, a
synchronizer with something to catch up with, and its selector, with a search that may be under way
or over. -/
structure Relay where
  /-- The engine. -/
  engine : Engine
  /-- It passes forkchoice states on. -/
  announces : engine.announces = true
  /-- The synchronizer, which is told. -/
  synchronizer : Synchronizer
  /-- It has something to catch up with. -/
  catchesUp : synchronizer.catchUps ≠ []
  /-- The selector, which is told in turn. -/
  selector : Selector
  /-- How long a search pauses between two polls. -/
  interval : Duration
  /-- The search, if one was begun and did not break down. -/
  search : Option (Search.Turn HeaderQuery) := none

/-- What can happen to a node. -/
inductive Relay.Moment where
  /-- The engine is asked something. -/
  | asked (a : Engine.Answers) (input : Engine.Input)
  /-- Something happens to the synchronizer. -/
  | driven (a : Act)
  /-- The selector is told of a forkchoice state directly. -/
  | told (state : ForkchoiceState)
  /-- The selector is closed directly. -/
  | closed
  /-- The search is polled, so long after that was due. -/
  | polled (delay : Nat)

namespace Relay

variable (r : Relay)

/-- Something happens to the synchronizer, which may have the selector told. -/
def drive (a : Act) : Relay where
  engine := r.engine
  announces := r.announces
  synchronizer := r.synchronizer.act a
  catchesUp := List.ne_nil_of_length_pos (Nat.lt_of_lt_of_le
    (List.length_pos_of_ne_nil r.catchesUp) (r.synchronizer.length_catchUps_act a))
  selector := (r.synchronizer.newCalls a).foldl Selector.hear r.selector
  interval := r.interval
  search := r.search

/-- States are announced to the synchronizer, one after the other. -/
def announceAll (states : List ForkchoiceState) : Relay :=
  states.foldl (fun r state => r.drive (.announce state)) r

/-- The engine is asked something, and passes forkchoice states on. -/
def serve (a : Engine.Answers) (input : Engine.Input) : Relay :=
  let reply := r.engine.handle a input
  let r : Relay := { r with
    engine := r.engine.afterReply reply
    announces := (Engine.announces_afterReply _ reply).trans r.announces }
  r.announceAll reply.announced

/-- The search is polled, unless none is under way. -/
def poll (delay : Nat) : Relay :=
  match r.search with
  | some (.pending s) =>
    let turn := s.poll r.interval (fun late => r.selector.look [] late) (s.due + delay)
    { r with search := some turn }
  | _ => r

/-- A node after something happened to it. -/
def act : Moment → Relay
  | .asked a input => r.serve a input
  | .driven a => r.drive a
  | .told state => { r with selector := r.selector.announce state }
  | .closed => { r with selector := r.selector.close }
  | .polled delay => r.poll delay

/-- A node after a history. -/
def after (h : List Moment) : Relay := h.foldl act r

/-- A search begins now. -/
def seek (now : Nat) : Relay := { r with search := (r.selector.search? now).map .pending }

/-- The forkchoice states that are announced to the synchronizer at a moment, by the engine or
directly. The engine passes on those with a head. -/
def Moment.announced : Moment → List ForkchoiceState
  | .asked _ (.forkchoice state _) => if state.head.isZero then [] else [state]
  | .driven (.announce state) => [state]
  | _ => []

/-- What a moment means for the safe block. -/
def tidings : Moment → List Tiding
  | .asked a input => (Moment.asked a input).announced.map .announced
  | .driven a => r.synchronizer.tidings a
  | .told state => [.announced state]
  | .closed => [.closed]
  | .polled _ => []

/-- What a history means for the safe block. -/
def heard (r : Relay) : List Moment → List Tiding
  | [] => []
  | m :: h => r.tidings m ++ (r.act m).heard h

/-- What the polls of a history see, if nothing else was heard of before and the first of them is
due at some time. -/
def sightings (r : Relay) (heard : List Tiding) (due : Nat) :
    List Moment → List (Search.Poll (List Tiding))
  | [] => []
  | .polled delay :: h =>
    ⟨due + delay, heard⟩ ::
      (r.act (.polled delay)).sightings heard (due + delay + r.interval.nanoseconds) h
  | m :: h => (r.act m).sightings (heard ++ r.tidings m) due h

variable {r} {timeout : Duration} {known : Option Hash}

/-! ### What a moment does -/

/-- A poll does nothing but look. -/
theorem poll_eq (r : Relay) (delay : Nat) :
    r.poll delay = { r with search := (r.poll delay).search } := by
  unfold poll
  cases r.search with
  | none => rfl
  | some turn => cases turn <;> rfl

/-- The engine passes on what is announced. -/
theorem serve_eq (r : Relay) (a : Engine.Answers) (input : Engine.Input) :
    ∃ e, ∃ h : e.announces = true,
      r.serve a input =
        { r with engine := e, announces := h }.announceAll (Moment.asked a input).announced := by
  have hannounced : (r.engine.handle a input).announced = (Moment.asked a input).announced := by
    rw [Engine.announced_handle, r.announces]
    cases input with
    | forkchoice state attributes =>
      dsimp only [Moment.announced]
      cases state.head.isZero <;> rfl
    | _ => rfl
  exact ⟨_, _, by rw [← hannounced]; rfl⟩

/-- The selector is told what happens to the synchronizer. -/
theorem selector_drive (h : r.selector = .knowing timeout known) (a : Act) :
    (r.drive a).selector =
      .knowing timeout ((r.synchronizer.tidings a).foldl Tiding.update known) := by
  unfold drive
  rw [h]
  exact r.synchronizer.foldl_hear_newCalls r.catchesUp a timeout known

/-- The selector is told of states that are announced to the synchronizer. -/
theorem selector_announceAll (h : r.selector = .knowing timeout known)
    (states : List ForkchoiceState) :
    (r.announceAll states).selector =
      .knowing timeout ((states.map .announced).foldl Tiding.update known) := by
  induction states generalizing r known with
  | nil => exact h
  | cons state states ih => exact ih (selector_drive h (.announce state))

/-- **At every moment the selector is told what that means for the safe block.** -/
theorem selector_act (h : r.selector = .knowing timeout known) (m : Moment) :
    (r.act m).selector = .knowing timeout ((r.tidings m).foldl Tiding.update known) := by
  cases m with
  | asked a input =>
    obtain ⟨e, he, hserve⟩ := r.serve_eq a input
    show (r.serve a input).selector = _
    rw [hserve]
    exact selector_announceAll (by exact h) _
  | driven a => exact selector_drive h a
  | told state =>
    show r.selector.announce state = _
    rw [h]
    exact Selector.announce_knowing state
  | closed =>
    show r.selector.close = _
    rw [h]
    rfl
  | polled delay =>
    show (r.poll delay).selector = _
    rw [poll_eq]
    exact h

/-- Block propagation is told of states that are announced to the synchronizer, if there is any. -/
theorem propagated_announceAll (r : Relay) (states : List ForkchoiceState) :
    (r.announceAll states).synchronizer.propagates = r.synchronizer.propagates ∧
      (r.announceAll states).synchronizer.book.calls.filterMap Call.propagated? =
        r.synchronizer.book.calls.filterMap Call.propagated? ++
          if r.synchronizer.propagates then states else [] := by
  induction states generalizing r with
  | nil => exact ⟨rfl, by rw [ite_self, List.append_nil]; rfl⟩
  | cons state states ih =>
    obtain ⟨hpropagates, hpropagated⟩ := ih (r.drive (.announce state))
    have hdrive : (r.drive (.announce state)).synchronizer.propagates =
        r.synchronizer.propagates := r.synchronizer.propagates_act _
    have hcalls : (r.drive (.announce state)).synchronizer.book.calls =
        r.synchronizer.book.calls ++ r.synchronizer.newCalls (.announce state) :=
      r.synchronizer.calls_act _
    refine ⟨hpropagates.trans hdrive, hpropagated.trans ?_⟩
    rw [hdrive, hcalls, List.filterMap_append, r.synchronizer.propagated_newCalls]
    dsimp only
    split
    · rw [List.append_assoc, List.singleton_append]
    · rw [List.append_nil]

/-- **At every moment block propagation is told what is announced to the synchronizer**, if there is
any. -/
theorem propagated_act (r : Relay) (m : Moment) :
    (r.act m).synchronizer.propagates = r.synchronizer.propagates ∧
      (r.act m).synchronizer.book.calls.filterMap Call.propagated? =
        r.synchronizer.book.calls.filterMap Call.propagated? ++
          if r.synchronizer.propagates then m.announced else [] := by
  have hnothing : r.synchronizer.book.calls.filterMap Call.propagated? =
      r.synchronizer.book.calls.filterMap Call.propagated? ++
        if r.synchronizer.propagates then [] else [] := by
    rw [ite_self, List.append_nil]
  cases m with
  | asked a input =>
    obtain ⟨e, he, hserve⟩ := r.serve_eq a input
    show (r.serve a input).synchronizer.propagates = _ ∧ _
    rw [show r.act (.asked a input) = r.serve a input from rfl, hserve]
    exact propagated_announceAll _ _
  | driven a =>
    refine ⟨r.synchronizer.propagates_act a, ?_⟩
    show (r.synchronizer.act a).book.calls.filterMap _ = _
    rw [r.synchronizer.calls_act, List.filterMap_append, r.synchronizer.propagated_newCalls]
    cases a with
    | announce state => rfl
    | _ => exact congrArg _ (ite_self _).symm
  | told state => exact ⟨rfl, hnothing⟩
  | closed => exact ⟨rfl, hnothing⟩
  | polled delay =>
    show (r.poll delay).synchronizer.propagates = _ ∧ _
    rw [show r.act (.polled delay) = r.poll delay from rfl, poll_eq]
    exact ⟨rfl, hnothing⟩

/-- Only polls move a search on, and nothing changes the pause between them. -/
theorem search_act {m : Moment} (hm : ∀ delay, m ≠ .polled delay) (r : Relay) :
    (r.act m).search = r.search ∧ (r.act m).interval = r.interval := by
  have hannounceAll (r : Relay) (states : List ForkchoiceState) :
      (r.announceAll states).search = r.search ∧
        (r.announceAll states).interval = r.interval := by
    induction states generalizing r with
    | nil => exact ⟨rfl, rfl⟩
    | cons state states ih => exact ih (r.drive (.announce state))
  cases m with
  | asked a input =>
    obtain ⟨e, he, hserve⟩ := r.serve_eq a input
    rw [show r.act (.asked a input) = r.serve a input from rfl, hserve]
    exact hannounceAll _ _
  | driven a => exact ⟨rfl, rfl⟩
  | told state => exact ⟨rfl, rfl⟩
  | closed => exact ⟨rfl, rfl⟩
  | polled delay => exact absurd rfl (hm delay)

/-- A poll touches nothing but the search. -/
theorem act_polled (r : Relay) (delay : Nat) :
    (r.act (.polled delay)).interval = r.interval ∧
      (r.act (.polled delay)).selector = r.selector := by
  rw [show r.act (.polled delay) = r.poll delay from rfl, poll_eq]
  exact ⟨rfl, rfl⟩

/-! ### What a history does -/

/-- **The selector knows the safe block that is in force.** -/
theorem selector_after (h : r.selector = .knowing timeout known) (history : List Moment) :
    (r.after history).selector =
      .knowing timeout ((r.heard history).foldl Tiding.update known) := by
  induction history generalizing r known with
  | nil => exact h
  | cons m history ih =>
    rw [heard, List.foldl_append]
    exact ih (selector_act h m)

/-- **Block propagation hears of all that is announced to the synchronizer**, each time once, and in
order. -/
theorem propagated_after (r : Relay) (history : List Moment) :
    (r.after history).synchronizer.book.calls.filterMap Call.propagated? =
      r.synchronizer.book.calls.filterMap Call.propagated? ++
        if r.synchronizer.propagates then history.flatMap Moment.announced else [] := by
  induction history generalizing r with
  | nil => exact (by rw [List.flatMap_nil, ite_self, List.append_nil]; rfl)
  | cons m history ih =>
    obtain ⟨hpropagates, hpropagated⟩ := r.propagated_act m
    refine (ih (r.act m)).trans ?_
    rw [hpropagates, hpropagated, List.append_assoc, List.flatMap_cons]
    split <;> rfl

/-- Nothing changes the pause between two polls. -/
theorem interval_after (r : Relay) (history : List Moment) :
    (r.after history).interval = r.interval := by
  induction history generalizing r with
  | nil => rfl
  | cons m history ih =>
    refine (ih (r.act m)).trans ?_
    by_cases hpolled : ∃ delay, m = .polled delay
    · obtain ⟨delay, rfl⟩ := hpolled
      exact (r.act_polled delay).1
    · exact (search_act (fun delay h => hpolled ⟨delay, h⟩) r).2

/-- A search that is not under way stays as it is, over or broken down. -/
theorem search_after_of_idle (h : ∀ s, r.search ≠ some (.pending s)) (history : List Moment) :
    (r.after history).search = r.search := by
  induction history generalizing r with
  | nil => rfl
  | cons m history ih =>
    have hact : (r.act m).search = r.search := by
      by_cases hpolled : ∃ delay, m = .polled delay
      · obtain ⟨delay, rfl⟩ := hpolled
        show (r.poll delay).search = _
        unfold poll
        split
        next s hpending => exact absurd hpending (h s)
        next => rfl
      · exact (search_act (fun delay h => hpolled ⟨delay, h⟩) r).1
    exact (ih (r := r.act m) (by rwa [hact])).trans hact

/-- A search that cannot be begun comes to nothing, whatever happens then. -/
theorem search_after_seek {now : Nat} (h : r.selector.search? now = none)
    (history : List Moment) : ((r.seek now).after history).search = none := by
  have hidle : (r.seek now).search = none := congrArg (Option.map Search.Turn.pending) h
  refine (search_after_of_idle (fun s hpending => ?_) history).trans hidle
  rw [hidle] at hpending
  cases hpending

/-- A look of a selector, as far as it heard. -/
def lookAt (timeout : Duration) (heard : List Tiding) (late : Bool) : Look HeaderQuery :=
  (Selector.knowing timeout (Tiding.safeBlock heard)).look [] late

/-- Unless the search is polled nothing is seen. -/
theorem sightings_cons_of_ne {m : Moment} (hm : ∀ delay, m ≠ .polled delay) (r : Relay)
    (heard : List Tiding) (due : Nat) (history : List Moment) :
    r.sightings heard due (m :: history) =
      (r.act m).sightings (heard ++ r.tidings m) due history := by
  cases m with
  | polled delay => exact absurd rfl (hm delay)
  | _ => rfl

/-- A poll of a search that is under way looks at what was heard. -/
theorem search_act_polled {heard : List Tiding} {s : Search}
    (hselector : r.selector = .knowing timeout (Tiding.safeBlock heard))
    (hsearch : r.search = some (.pending s)) (delay : Nat) :
    (r.act (.polled delay)).search =
      some (s.poll r.interval (lookAt timeout heard) (s.due + delay)) := by
  show (r.poll delay).search = _
  unfold poll
  rw [hsearch]
  dsimp only
  rw [hselector]
  rfl

/-- **A search comes to what its polls see in force.** -/
theorem search_after {heard : List Tiding} {s : Search}
    (hselector : r.selector = .knowing timeout (Tiding.safeBlock heard))
    (hsearch : r.search = some (.pending s)) (history : List Moment) :
    (r.after history).search =
      some (s.run r.interval (lookAt timeout) (r.sightings heard s.due history)) := by
  induction history generalizing r heard s with
  | nil => exact hsearch
  | cons m history ih =>
    by_cases hpolled : ∃ delay, m = .polled delay
    · obtain ⟨delay, rfl⟩ := hpolled
      obtain ⟨hinterval, hkept⟩ := r.act_polled delay
      have hpoll := search_act_polled hselector hsearch delay
      show ((r.act (.polled delay)).after history).search = _
      rw [sightings, Search.run]
      cases hturn : s.poll r.interval (lookAt timeout heard) (s.due + delay) with
      | settled result =>
        rw [hturn] at hpoll
        refine (search_after_of_idle (fun s' hpending => ?_) history).trans hpoll
        rw [hpoll] at hpending
        cases hpending
      | pending s' =>
        rw [hturn] at hpoll
        obtain rfl : s' = s.pause r.interval (s.due + delay) := by
          unfold Search.poll at hturn
          split at hturn
          · exact (Search.Turn.pending.inj hturn).symm
          · cases hturn
        have hrest := ih (hkept.trans hselector) hpoll
        rwa [hinterval] at hrest
    · have hm : ∀ delay, m ≠ .polled delay := fun delay h => hpolled ⟨delay, h⟩
      obtain ⟨hkept, hinterval⟩ := search_act hm r
      have htold : (r.act m).selector =
          .knowing timeout (Tiding.safeBlock (heard ++ r.tidings m)) := by
        rw [selector_act hselector m, Tiding.safeBlock, Tiding.safeBlock, List.foldl_append]
      rw [sightings_cons_of_ne hm, ← hinterval]
      exact ih htold (hkept.trans hsearch)

/-- No poll of a history comes before it is due. -/
theorem punctual_sightings (r : Relay) (heard : List Tiding) (s : Search)
    (history : List Moment) :
    s.Punctual r.interval (r.sightings heard s.due history) := by
  induction history generalizing r heard s with
  | nil => trivial
  | cons m history ih =>
    by_cases hpolled : ∃ delay, m = .polled delay
    · obtain ⟨delay, rfl⟩ := hpolled
      have hrest := ih (r.act (.polled delay)) heard (s.pause r.interval (s.due + delay))
      rw [(r.act_polled delay).1] at hrest
      exact ⟨Nat.le_add_right _ _, hrest⟩
    · have hm : ∀ delay, m ≠ .polled delay := fun delay h => hpolled ⟨delay, h⟩
      rw [sightings_cons_of_ne hm, ← (search_act hm r).2]
      exact ih _ _ s

/-- A look of a selector is patient, and asks for the safe block then. -/
theorem lookAt_eq (timeout : Duration) :
    lookAt timeout = fun heard late => Search.mapLook (·.map .hash)
      (Search.patient Tiding.safeBlock (fun _ => .noSafeBlock) heard late) := by
  funext heard late
  unfold lookAt Search.patient
  dsimp only [Selector.look, SafeBlockSelector.look]
  cases Tiding.safeBlock heard with
  | some hash => rfl
  | none => cases late <;> rfl

/-- **The safe block is the latest that was announced.** Whatever happens to a node with a fresh
selector, in any order:

* The selector knows the safe block that is in force and no other.  What the engine is asked counts
  as announced exactly if it is a forkchoice state with a head.
* Block propagation hears of all that is announced to the synchronizer, once and in order.
* A search can be begun at any moment.  It breaks down, and comes to nothing, exactly if its
  deadline lies beyond the end of the clock.  Any other asks for the hash that is in force at the
  first poll at which one is, and fails exactly if none is in force at any poll up to the first late
  one.  It is over after so many polls. -/
theorem safeBlock_latest (r : Relay) (timeout : Duration)
    (hfresh : r.selector = .safeBlock ⟨none, timeout⟩) (hinterval : 0 < r.interval.nanoseconds) :
    (∀ history, ∃ known, (r.after history).selector = .safeBlock ⟨known, timeout⟩ ∧
      ∀ hash, known = some hash ↔ Tiding.InForce (r.heard history) hash) ∧
    (∀ history, (r.after history).synchronizer.book.calls.filterMap Call.propagated? =
      r.synchronizer.book.calls.filterMap Call.propagated? ++
        if r.synchronizer.propagates then history.flatMap Moment.announced else []) ∧
    (∀ past start,
      ((r.after past).selector.search? start = none ↔
        Search.clockEnd ≤ start + timeout.nanoseconds) ∧
      ((r.after past).selector.search? start = none →
        ∀ rest, (((r.after past).seek start).after rest).search = none) ∧
      ∀ search ∈ (r.after past).selector.search? start, ∀ rest,
        let sightings := ((r.after past).seek start).sightings (r.heard past) start rest
        (∀ result, (((r.after past).seek start).after rest).search = some (.settled result) ↔
          ∃ found, search.Decides Tiding.safeBlock (fun _ => .noSafeBlock) sightings found ∧
            result = found.map .hash) ∧
        (timeout.nanoseconds / r.interval.nanoseconds + 1 < sightings.length →
          ∃ result, (((r.after past).seek start).after rest).search = some (.settled result))) ∧
    ∀ tidings hash, Tiding.safeBlock tidings = some hash ↔ Tiding.InForce tidings hash := by
  have hselector (history : List Moment) : (r.after history).selector =
      .knowing timeout (Tiding.safeBlock (r.heard history)) := selector_after hfresh history
  refine ⟨fun history => ⟨_, hselector history, fun hash => Tiding.safeBlock_eq_some_iff⟩,
    r.propagated_after, fun past start => ⟨?_, search_after_seek, fun search hsearch rest => ?_⟩,
    fun tidings hash => Tiding.safeBlock_eq_some_iff⟩
  · rw [hselector past]
    exact (Search.begin?_eq timeout start).1
  obtain rfl := (Search.begin?_eq _ start).2 search hsearch
  have hpause : ((r.after past).seek start).interval = r.interval := r.interval_after past
  have hrun := search_after (r := (r.after past).seek start) (hselector past)
    (congrArg (Option.map Search.Turn.pending) hsearch) rest
  have hpunctual := ((r.after past).seek start).punctual_sightings (r.heard past)
    (.begin timeout start) rest
  rw [hselector past, hpause] at hrun
  rw [hpause] at hpunctual
  have hover (result : Except PivotError HeaderQuery) :
      (((r.after past).seek start).after rest).search = some (.settled result) ↔
        ∃ found, (Search.begin timeout start).Decides Tiding.safeBlock (fun _ => .noSafeBlock)
          (((r.after past).seek start).sightings (r.heard past) start rest) found ∧
            result = found.map .hash := by
    rw [hrun, Option.some_inj, lookAt_eq, Search.run_mapLook_eq_settled_iff]
    simp only [Search.run_patient_eq_settled_iff]
    rfl
  rw [hselector past]
  refine ⟨hover, fun hlength => ?_⟩
  obtain ⟨found, hfound⟩ := Search.exists_decides hinterval hpunctual hlength
  exact ⟨found.map .hash, (hover _).mpr ⟨found, hfound, rfl⟩⟩

/-- A node to which nothing was announced yet. -/
def unheard : Relay where
  engine := .fresh
  announces := rfl
  synchronizer := .usual
  catchesUp := List.cons_ne_nil _ _
  selector := .safeBlock ⟨none, .milliseconds 20⟩
  interval := .milliseconds 5

/-- A forkchoice state that says the same of its head and its safe block. -/
def safeHead : ForkchoiceState :=
  ⟨⟨List.replicate 32 1, rfl⟩, ⟨List.replicate 32 1, rfl⟩, .zero 32⟩

/-- A search sees nothing, and then what the engine was asked to follow in between. -/
theorem safeBlock_latest_unheard :
    0 < unheard.interval.nanoseconds ∧
      ((unheard.seek 0).after [.polled 0, .asked (Engine.failing "") (.forkchoice safeHead none),
        .polled 0]).search = some (.settled (.ok (.hash safeHead.safe))) := by
  obtain ⟨-, -, hsearch, -⟩ := safeBlock_latest unheard (.milliseconds 20) rfl (by decide)
  obtain ⟨hover, -⟩ := (hsearch [] 0).2.2 (.begin (.milliseconds 20) 0) rfl [.polled 0,
    .asked (Engine.failing "") (.forkchoice safeHead none), .polled 0]
  have hwaits : ∀ q ∈ [(⟨0, []⟩ : Search.Poll (List Tiding))],
      Tiding.safeBlock q.seen = none ∧ q.time < (Search.begin (.milliseconds 20) 0).deadline := by
    intro q hq
    obtain rfl := List.mem_singleton.mp hq
    exact ⟨rfl, by decide⟩
  have hseen : Tiding.safeBlock [.announced safeHead] = some safeHead.safe := by decide
  exact ⟨by decide, (hover _).mpr ⟨.ok safeHead.safe, .found hwaits hseen, rfl⟩⟩

/-- A node to which nothing was announced yet, with a selector that may wait longer than the clock
goes. -/
def boundless : Relay :=
  { unheard with selector := .safeBlock ⟨none, .seconds 9467280000000000000⟩ }

/-- With a deadline beyond the end of the clock nothing is asked for at the first poll, though a
safe block is in force. -/
theorem timeless_search_unanswered :
    ¬ ∀ (r : Relay) (timeout : Duration) (past : List Moment) (hash : Hash) (start delay : Nat),
      r.selector = .safeBlock ⟨none, timeout⟩ → 0 < r.interval.nanoseconds →
        Tiding.InForce (r.heard past) hash →
          (((r.after past).seek start).after [.polled delay]).search =
            some (.settled (.ok (.hash hash))) := by
  intro hanswers
  have hforce : Tiding.InForce (boundless.heard [.told safeHead]) safeHead.safe :=
    ⟨[], safeHead, [], rfl, by decide, rfl, nofun⟩
  have hanswered := hanswers boundless _ [.told safeHead] _ 0 0 rfl (by decide) hforce
  have hnone : (boundless.after [.told safeHead]).selector.search? 0 = none :=
    (Search.begin?_eq (.seconds 9467280000000000000) 0).1.mpr (by decide)
  rw [search_after_seek hnone] at hanswered
  cases hanswered

end Relay

end ExecutionNode.Sync
