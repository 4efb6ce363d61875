import ExecutionNode.Proofs.Sync.Nesting
import ExecutionNode.Proofs.Sync.Runs

/-!
# The progress, as the logbook tells it

Every change of the progress is a call.  Unless a listener acts on the sync state from inside a
notice, the progress is therefore what the changes in the logbook made of it.

* `State.Quiet` says that no listener will act; `Logbook.Extends.account` draws the account.
* `extends_resume` says that a step of a run only continues the logbook, and neither starts over nor
  passes a forkchoice state on.
* `Logbook.Extends.initialDone_eq` and `Logbook.Extends.terminal_eq`: what was told of the initial
  phase and of the end of the download holds until a call says otherwise.
-/

namespace ExecutionNode.Sync

/-! ### Changes in a row -/

/-- The progress after changes in a row. -/
def Progress.afterAll (p : Progress) (changes : List Progress.Change) : Progress :=
  changes.foldl Progress.after p

/-- Only its end and its new beginning matter for the initial phase. -/
theorem Progress.initialDone_afterAll {changes : List Progress.Change}
    (hdone : .initialDone ∉ changes) (hrestart : .restart ∉ changes) (p : Progress) :
    (p.afterAll changes).initialDone = p.initialDone := by
  induction changes generalizing p with
  | nil => rfl
  | cons c changes ih =>
    rw [List.mem_cons, not_or] at hdone hrestart
    refine (ih hdone.2 hrestart.2 (p.after c)).trans ?_
    cases c with
    | initialDone => exact absurd rfl hdone.1
    | restart => exact absurd rfl hrestart.1
    | _ => rfl

/-- Only the answers, and a new beginning, matter for the end of the download. -/
theorem Progress.terminal_afterAll {changes : List Progress.Change}
    (hterminal : ∀ reached, .terminal reached ∉ changes) (hrestart : .restart ∉ changes)
    (p : Progress) : (p.afterAll changes).terminal = p.terminal := by
  induction changes generalizing p with
  | nil => rfl
  | cons c changes ih =>
    simp only [List.mem_cons, not_or] at hterminal hrestart
    refine (ih (fun reached => (hterminal reached).2) hrestart.2 (p.after c)).trans ?_
    cases c with
    | terminal reached => exact absurd rfl (hterminal reached).1
    | restart => exact absurd rfl hrestart.1
    | _ => rfl

/-! ### Listeners that do not act -/

namespace State

/-- No listener will act on the sync state. -/
def Quiet (s : State) : Prop := ∀ l ∈ s.listeners, l.reactions = []

variable {s : State} {react : Operation → State → State}

/-- The listener of a number has nothing left to do. -/
def Idle (s : State) (id : Nat) : Prop := ∀ l ∈ s.listeners[id]?, l.reactions = []

theorem Quiet.idle (h : s.Quiet) (id : Nat) : s.Idle id :=
  fun l hl => h l (List.mem_of_getElem? hl)

/-- A listener that has nothing left to do only hears. -/
theorem deliver_of_idle {n : Notice} (h : s.Idle n.listener) :
    s.deliver react n = { s with notices := s.notices ++ [n] } := by
  unfold deliver
  dsimp only
  split
  next name ops rest hlistener => cases h _ hlistener
  next => rfl

/-- Listeners that have nothing left to do only hear, one after another. -/
theorem foldl_deliver_of_idle {α : Type} (notice : α → Notice) {xs : List α}
    (h : ∀ x ∈ xs, s.Idle (notice x).listener) :
    xs.foldl (fun s x => s.deliver react (notice x)) s =
      { s with notices := s.notices ++ xs.map notice } := by
  induction xs generalizing s with
  | nil => rw [List.map_nil, List.append_nil]; rfl
  | cons x xs ih =>
    obtain ⟨hx, hxs⟩ := List.forall_mem_cons.mp h
    rw [List.foldl_cons, deliver_of_idle hx, ih (by exact hxs), List.map_cons, List.append_assoc]
    rfl

/-- Quiet listeners only hear, one after another. -/
theorem foldl_deliver {α : Type} (h : s.Quiet) (notice : α → Notice) (xs : List α) :
    xs.foldl (fun s x => s.deliver react (notice x)) s =
      { s with notices := s.notices ++ xs.map notice } :=
  foldl_deliver_of_idle notice fun _ _ => h.idle _

/-- Among quiet listeners a change is all that happens to the progress, and they stay as they
are. -/
theorem update_of_quiet (h : s.Quiet) (c : Progress.Change) :
    (s.update react c).progress = s.progress.after c ∧
      (s.update react c).listeners = s.listeners := by
  have htold {t : State} (ht : t.Quiet) (p : Progress) :
      (t.deliverInSync react p).progress = t.progress ∧
        (t.deliverInSync react p).listeners = t.listeners := by
    unfold deliverInSync
    dsimp only
    rw [foldl_deliver (by exact ht)]
    exact ⟨rfl, rfl⟩
  unfold update
  dsimp only
  split
  · exact htold (t := { s with progress := s.progress.after c, measured := true }) h _
  · unfold deliverStatus
    rw [foldl_deliver (by exact h)]
    exact htold (t := { s with
      progress := s.progress.after c
      measured := true
      notices := _ }) h _

/-- Among quiet listeners a change is all that happens to the progress, and they stay as they
are. -/
theorem perform_of_quiet (h : s.Quiet) (c : Progress.Change) :
    (perform (.change c) s).progress = s.progress.after c ∧
      (perform (.change c) s).listeners = s.listeners := by
  rw [perform_eq_step]
  exact update_of_quiet h c

end State

/-! ### The account -/

namespace Logbook

variable {p : Call → Bool} {b b' : Logbook}

/-- Among quiet listeners a change is all that happens to the progress, and they stay quiet. -/
theorem progress_change (h : b.state.Quiet) (c : Progress.Change) :
    (b.change c).state.progress = b.state.progress.after c ∧ (b.change c).state.Quiet := by
  obtain ⟨hprogress, hlisteners⟩ :=
    State.perform_of_quiet (s := { b.state with notices := [] }) h c
  refine ⟨hprogress, ?_⟩
  intro l hl
  rw [show (b.change c).state.listeners = b.state.listeners from hlisteners] at hl
  exact h l hl

/-- A change with its notices is one change. -/
theorem filterMap_change?_cons (c : Progress.Change) (notices : List Notice) :
    (.change c :: notices.map Call.notify).filterMap Call.change? = [c] := by
  have hnotices : (notices.map Call.notify).filterMap Call.change? = [] := by
    rw [List.filterMap_map, List.filterMap_eq_nil_iff]
    intro n _
    rfl
  rw [List.filterMap_cons, hnotices]
  rfl

/-- **Among quiet listeners the progress is what the changes in the logbook made of it.** -/
theorem Extends.account (h : Extends p b b') (hquiet : b.state.Quiet) :
    ∃ new, b'.calls = b.calls ++ new ∧ (∀ c ∈ new, p c = true ∨ ∃ n, c = .notify n) ∧
      b'.state.Quiet ∧
      b'.state.progress = b.state.progress.afterAll (new.filterMap Call.change?) := by
  induction h with
  | refl => exact ⟨[], (List.append_nil _).symm, by simp, hquiet, rfl⟩
  | @call b' _ c hc hchange ih =>
    obtain ⟨new, hcalls, hnew, hquiet', hprogress⟩ := ih
    refine ⟨new ++ [c], ?_, ?_, hquiet', ?_⟩
    · rw [← List.append_assoc, ← hcalls]
      rfl
    · rw [List.forall_mem_append]
      exact ⟨hnew, by simpa using .inl hc⟩
    · rw [List.filterMap_append, List.filterMap_cons_none hchange, List.filterMap_nil,
        List.append_nil]
      exact hprogress
  | @change b' _ c hc ih =>
    obtain ⟨new, hcalls, hnew, hquiet', hprogress⟩ := ih
    obtain ⟨notices, hchange⟩ := b'.calls_change c
    obtain ⟨hafter, hquiet''⟩ := progress_change hquiet' c
    refine ⟨new ++ .change c :: notices.map .notify, ?_, ?_, hquiet'', ?_⟩
    · rw [hchange, hcalls, List.append_assoc]
    · rw [List.forall_mem_append, List.forall_mem_cons]
      exact ⟨hnew, .inl hc, by simp⟩
    · rw [hafter, hprogress, List.filterMap_append, filterMap_change?_cons, Progress.afterAll,
        Progress.afterAll, List.foldl_append]
      rfl

/-- What is not new of a kind is not new at all. -/
theorem filter_new_eq_nil {q : Call → Bool} {new : List Call} (hcalls : b'.calls = b.calls ++ new)
    (honly : b'.only q = b.only q) : new.filter q = [] := by
  unfold only at honly
  rw [hcalls, List.filter_append] at honly
  exact List.append_right_eq_self.mp honly

/-- Calls without any of a kind have no such change. -/
theorem not_mem_changes {q : Call → Bool} {new : List Call} (hnone : new.filter q = [])
    {c : Progress.Change} (hc : q (.change c) = true) : c ∉ new.filterMap Call.change? := by
  intro hmem
  obtain ⟨call, hcall, hchange⟩ := List.mem_filterMap.mp hmem
  cases call with
  | change c' =>
    obtain rfl := Option.some.inj hchange
    exact List.filter_eq_nil_iff.mp hnone _ hcall hc
  | _ => cases hchange

/-- Calls of a kind without some change do not make it. -/
theorem not_mem_changes_of {new : List Call} (hnew : ∀ c ∈ new, p c = true ∨ ∃ n, c = .notify n)
    {c : Progress.Change} (hc : p (.change c) = false) : c ∉ new.filterMap Call.change? := by
  intro hmem
  obtain ⟨call, hcall, hchange⟩ := List.mem_filterMap.mp hmem
  cases call with
  | change c' =>
    obtain rfl := Option.some.inj hchange
    rcases hnew _ hcall with hp | ⟨n, hn⟩
    · rw [hc] at hp
      cases hp
    · cases hn
  | _ => cases hchange

/-- **What was told of the initial phase holds** until a call says otherwise. -/
theorem Extends.initialDone_eq (h : Extends p b b') (hquiet : b.state.Quiet)
    (hrestart : p (.change .restart) = false) {q : Call → Bool}
    (hdone : q (.change .initialDone) = true) (honly : b'.only q = b.only q) :
    b'.state.progress.initialDone = b.state.progress.initialDone := by
  obtain ⟨new, hcalls, hnew, -, hprogress⟩ := h.account hquiet
  rw [hprogress]
  exact Progress.initialDone_afterAll (not_mem_changes (filter_new_eq_nil hcalls honly) hdone)
    (not_mem_changes_of hnew hrestart) _

/-- **What was told of the end of the download holds** until a call says otherwise. -/
theorem Extends.terminal_eq (h : Extends p b b') (hquiet : b.state.Quiet)
    (hrestart : p (.change .restart) = false) {q : Call → Bool}
    (hterminal : ∀ reached, q (.change (.terminal reached)) = true)
    (honly : b'.only q = b.only q) :
    b'.state.progress.terminal = b.state.progress.terminal := by
  obtain ⟨new, hcalls, hnew, -, hprogress⟩ := h.account hquiet
  have hnone := filter_new_eq_nil hcalls honly
  rw [hprogress]
  exact Progress.terminal_afterAll (fun reached => not_mem_changes hnone (hterminal reached))
    (not_mem_changes_of hnew hrestart) _

/-- Quiet listeners stay quiet. -/
theorem Extends.quiet (h : Extends p b b') (hquiet : b.state.Quiet) : b'.state.Quiet := by
  obtain ⟨-, -, -, hquiet', -⟩ := h.account hquiet
  exact hquiet'

end Logbook

/-! ### Steps of a run -/

/-- A run goes on: it never starts over, and passes no forkchoice state on. -/
def Call.goesOn : Call → Bool
  | change .restart => false
  | announceToSelector _ => false
  | announceToPropagation _ => false
  | _ => true

/-- Routine work goes on. -/
theorem Call.goesOn_of_isRoutine {c : Call} (h : c.isRoutine = true) : c.goesOn = true := by
  cases c with
  | change c =>
    cases c with
    | restart => cases h
    | _ => rfl
  | announceToSelector _ => cases h
  | announceToPropagation _ => cases h
  | _ => rfl

namespace Synchronizer

variable {s : Synchronizer} {b : Logbook} {r : Replies} {run : Nat}

/-- A call that may be left out continues the logbook at most. -/
theorem extends_callIf (h : b.Extends Call.goesOn s.book) (condition : Bool) {c : Call}
    (hc : c.goesOn = true) (hchange : c.change? = none) :
    b.Extends Call.goesOn (s.callIf condition c).book := by
  unfold callIf
  split
  · exact h.call hc hchange
  · exact h

/-- To have missing nodes fetched on demand is a call at most. -/
theorem extends_enableFallback (h : b.Extends Call.goesOn s.book) (r : Replies) :
    b.Extends Call.goesOn (s.enableFallback r).book := by
  unfold enableFallback
  split
  · exact h.call rfl rfl
  · exact h

/-- A run that ends winds down. -/
theorem extends_finish (h : b.Extends Call.goesOn s.book) (run : Nat)
    (result : Except RunError Unit) : b.Extends Call.goesOn (s.finish run result).book := by
  unfold finish
  have hended : b.Extends Call.goesOn (s.setRun run (.ended result)).book := h
  generalize s.setRun run (.ended result) = t at hended
  by_cases hlast : run + 1 = t.runs.length
  · have hpropagation := extends_callIf hended t.propagates (c := .stopPropagation) rfl rfl
    rw [windDown_of_eq hlast]
    exact extends_callIf hpropagation t.prunes (c := .stopPruner) rfl rfl
  · rw [windDown_of_ne hlast]
    exact hended

/-- A run that has nothing left to download tells whether that is for good. -/
theorem extends_conclude (h : b.Extends Call.goesOn s.book) (r : Replies) (run : Nat) :
    b.Extends Call.goesOn (s.conclude r run).book := by
  have hconsult : b.Extends Call.goesOn (s.call (.consultTermination r.overAtEnd)).book :=
    h.call rfl rfl
  unfold conclude
  dsimp only
  apply extends_finish
  split
  · exact hconsult.change rfl
  · exact hconsult

/-- A step of full sync is noted as it was. -/
theorem extends_afterFullSync {o : FullSync.Outcome} (h : b.Extends Call.goesOn o.book)
    (s : Synchronizer) (r : Replies) (run arming : Nat) :
    b.Extends Call.goesOn (s.afterFullSync r run arming o).book := by
  unfold afterFullSync
  dsimp only
  split
  · exact h
  · exact extends_conclude h r run
  · exact extends_finish h run _
  · exact h

/-- To go on with full sync goes on. -/
theorem extends_follow (h : b.Extends Call.goesOn s.book) (r : Replies) (run : Nat) :
    b.Extends Call.goesOn (s.follow r run).book := by
  unfold follow
  split
  · have hpruner := extends_callIf h s.prunes (c := .startPruner) rfl rfl
    dsimp only
    split
    · exact extends_conclude hpruner r run
    next f _ =>
      apply extends_afterFullSync
      exact (hpruner.call rfl rfl).trans
        ((f.start.extends_resume r _ _ _ _).mono fun _ => Call.goesOn_of_isRoutine)
  · exact extends_finish h run _

/-- To hand over goes on. -/
theorem extends_handOver (h : b.Extends Call.goesOn s.book) (r : Replies) (run : Nat)
    (pivot : SealedHeader) : b.Extends Call.goesOn (s.handOver r run pivot).book := by
  have hdelete : b.Extends Call.goesOn (s.call .deletePivot).book := h.call rfl rfl
  unfold handOver
  dsimp only
  split
  · exact extends_finish hdelete run _
  · have hanchor : b.Extends Call.goesOn ((s.call .deletePivot).call (.anchor pivot)).book :=
      hdelete.call rfl rfl
    split
    · exact extends_finish hanchor run _
    · have hdone : b.Extends Call.goesOn
          ((((s.call .deletePivot).call (.anchor pivot)).call .closeSelector).change
            .initialDone).book := (hanchor.call rfl rfl).change rfl
      have hconsult := (extends_enableFallback hdone r).call
        (c := .consultTermination r.overAfterCatchUp) rfl rfl
      split
      · exact extends_finish (hconsult.change rfl) run _
      · exact extends_follow hconsult r run

/-- A step of a catch-up is noted as it was. -/
theorem extends_afterCatchUp {o : CatchUp.Outcome} (h : b.Extends Call.goesOn o.book)
    (s : Synchronizer) (r : Replies) (run downloader arming : Nat) :
    b.Extends Call.goesOn (s.afterCatchUp r run downloader arming o).book := by
  unfold afterCatchUp
  dsimp only
  split
  · exact h
  · exact h
  · split
    · split
      · exact extends_handOver h r run _
      · exact extends_finish h run _
    · exact extends_finish h run _

/-- **A step of a run only continues the logbook**, and neither starts over nor passes anything
on. -/
theorem extends_resume (s : Synchronizer) (r : Replies) (run : Nat) (event : Event) :
    s.book.Extends Call.goesOn (s.resume r run event).book := by
  unfold resume
  split
  · split
    · have hdone : s.book.Extends Call.goesOn (s.change .initialDone).book := .change .refl rfl
      exact extends_follow (extends_enableFallback hdone r) r run
    · exact .refl
  · split
    next c _ =>
      apply extends_afterCatchUp
      exact (c.extends_resume r _ _ _ _).mono fun _ => Call.goesOn_of_isRoutine
    · exact .refl
  · split
    next f _ =>
      apply extends_afterFullSync
      exact (f.extends_resume r _ _ _ _).mono fun _ => Call.goesOn_of_isRoutine
    · exact .refl
  · exact .refl

end Synchronizer

end ExecutionNode.Sync
