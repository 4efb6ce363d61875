import ExecutionNode.Proofs.Sync.Wired

/-!
# The lifecycle of a synchronizer

Block propagation, the pruner and the stop signals belong to the node, and runs that were stopped
may step at any later moment.  So it has to be shown that they do not interfere with the run that
came after them.

What a step can do to the switches is said once, in `Touches`: it may start the pruner while its
run is current, and it may wind down; all else is `Untouched`.  That a run which is not the latest
touches nothing follows (`Touches.untouched_of_older`), and so does the invariant `Switched`, which
ties both switches to the run that is active.

* `Pristine.switched_after`: the switches follow the active run through every truthful history.
* `lifecycle` puts this together with the soundness of the wiring.
-/

namespace ExecutionNode.Sync

/-- Routine work switches nothing. -/
theorem Call.switches_of_isRoutine {c : Call} (h : c.isRoutine = true) : c.switches = false := by
  cases c with
  | startPropagation => cases h
  | stopPropagation => cases h
  | startPruner => cases h
  | stopPruner => cases h
  | _ => rfl

namespace Synchronizer

variable {s t u : Synchronizer} {run : Nat}

/-! ### What leaves the switches alone -/

/-- Whether a run is active, how many there were and what was switched is as before, and no
downloader is gone. -/
structure Untouched (s t : Synchronizer) : Prop where
  /-- A run is active as before. -/
  running : t.running = s.running
  /-- There were as many runs as before. -/
  runs : t.runs.length = s.runs.length
  /-- There are at least as many downloaders for catching up as before. -/
  catchUps : s.catchUps.length ≤ t.catchUps.length
  /-- There is block propagation as before. -/
  propagates : t.propagates = s.propagates
  /-- There is a pruner as before. -/
  prunes : t.prunes = s.prunes
  /-- The same was switched. -/
  switches : t.book.only Call.switches = s.book.only Call.switches

/-- To do nothing leaves the switches alone. -/
theorem Untouched.refl (s : Synchronizer) : s.Untouched s :=
  ⟨rfl, rfl, Nat.le_refl _, rfl, rfl, rfl⟩

/-- What leaves the switches alone may come after the like. -/
theorem Untouched.trans (h : s.Untouched t) (h' : t.Untouched u) : s.Untouched u :=
  ⟨h'.running.trans h.running, h'.runs.trans h.runs, Nat.le_trans h.catchUps h'.catchUps,
    h'.propagates.trans h.propagates, h'.prunes.trans h.prunes, h'.switches.trans h.switches⟩

/-- A call of another kind leaves the switches alone. -/
theorem untouched_call (s : Synchronizer) (c : Call) (h : c.switches = false) :
    s.Untouched (s.call c) :=
  ⟨rfl, rfl, Nat.le_refl _, rfl, rfl, s.book.only_call_of_not h⟩

/-- A call of another kind leaves the switches alone, made or left out. -/
theorem untouched_callIf (s : Synchronizer) (condition : Bool) (c : Call)
    (h : c.switches = false) : s.Untouched (s.callIf condition c) := by
  have hswitches := only_callIf_of_not s condition h
  rw [callIf_eq] at hswitches ⊢
  exact ⟨rfl, rfl, Nat.le_refl _, rfl, rfl, hswitches⟩

/-- To operate on the sync state leaves the switches alone. -/
theorem untouched_perform (s : Synchronizer) (op : Operation) :
    s.Untouched { s with book := s.book.perform op } :=
  ⟨rfl, rfl, Nat.le_refl _, rfl, rfl, s.book.only_perform (fun _ => rfl) op⟩

/-- A change of the progress leaves the switches alone. -/
theorem untouched_change (s : Synchronizer) (c : Progress.Change) : s.Untouched (s.change c) :=
  ⟨rfl, rfl, Nat.le_refl _, rfl, rfl,
    (s.book.only_change (fun _ => rfl) c).trans (s.book.only_call_of_not rfl)⟩

/-- What is noted of a run leaves the switches alone. -/
theorem untouched_setRun (s : Synchronizer) (run : Nat) (stage : Run) :
    s.Untouched (s.setRun run stage) :=
  ⟨rfl, List.length_set, Nat.le_refl _, rfl, rfl, rfl⟩

/-- To discard what was fetched switches nothing. -/
theorem untouched_discarded (s : Synchronizer) (r : Replies) :
    (s.stop r).Untouched (s.discarded r) := by
  have hchange := (untouched_callIf (s.stop r) (s.stop r).catchUp?.isSome .deletePivot rfl).trans
    (untouched_change _ .restart)
  refine ⟨hchange.running, hchange.runs, Nat.le_trans hchange.catchUps ?_, hchange.propagates,
    hchange.prunes, hchange.switches⟩
  unfold discarded
  rw [List.length_append]
  exact Nat.le_add_right _ _

/-- To pass a forkchoice state on leaves the switches alone. -/
theorem untouched_announce (s : Synchronizer) (state : ForkchoiceState) :
    s.Untouched (s.announce state) :=
  (untouched_callIf s _ _ rfl).trans (untouched_callIf _ _ _ rfl)

/-- To have missing nodes fetched on demand leaves the switches alone. -/
theorem untouched_enableFallback (s : Synchronizer) (r : Replies) :
    s.Untouched (s.enableFallback r) := by
  unfold enableFallback
  split
  · exact ⟨rfl, rfl, Nat.le_refl _, rfl, rfl, s.book.only_call_of_not rfl⟩
  · exact .refl s

/-- A download switches nothing. -/
theorem untouched_of_grows {b : Logbook} (h : s.book.Grows b) {catchUps : List CatchUp}
    (hcatchUps : s.catchUps.length ≤ catchUps.length) (fullSync : Option FullSync) :
    s.Untouched { s with catchUps := catchUps, fullSync := fullSync, book := b } := by
  exact ⟨rfl, rfl, hcatchUps, rfl, rfl, h.only fun _ hc => Call.switches_of_isRoutine hc⟩

/-! ### What a step may touch -/

/-- What a step of a run may do to the switches. -/
inductive Touches (run : Nat) : Synchronizer → Synchronizer → Prop where
  /-- Nothing. -/
  | nothing {s t : Synchronizer} (h : s.Untouched t) : Touches run s t
  /-- It starts the pruner, while the run is current. -/
  | startPruner {s : Synchronizer} (h : s.isCurrent run = true) :
      Touches run s (s.callIf s.prunes .startPruner)
  /-- It winds down. -/
  | windDown (s : Synchronizer) : Touches run s (s.windDown run)
  /-- One thing after another. -/
  | trans {s t u : Synchronizer} (h : Touches run s t) (h' : Touches run t u) : Touches run s u

/-- A run that ends winds down. -/
theorem touches_finish (s : Synchronizer) (run : Nat) (result : Except RunError Unit) :
    Touches run s (s.finish run result) :=
  .trans (.nothing (s.untouched_setRun run _)) (.windDown _)

/-- A run that has nothing left to download winds down. -/
theorem touches_conclude (s : Synchronizer) (r : Replies) (run : Nat) :
    Touches run s (s.conclude r run) := by
  unfold conclude
  apply Touches.trans (.nothing (s.untouched_call (.consultTermination r.overAtEnd) rfl))
  dsimp only
  split
  · exact .trans (.nothing (untouched_change _ _)) (touches_finish _ run _)
  · exact touches_finish _ run _

/-- A run that follows the chain winds down at most. -/
theorem touches_afterFullSync (s : Synchronizer) (r : Replies) (run arming : Nat)
    {o : FullSync.Outcome} (h : s.book.Grows o.book) :
    Touches run s (s.afterFullSync r run arming o) := by
  apply Touches.trans (.nothing (untouched_of_grows h (Nat.le_refl _) (some o.fullSync)))
  unfold afterFullSync
  dsimp only
  cases o.turn with
  | waiting stage => exact .nothing (untouched_setRun _ run _)
  | ended result =>
    cases result with
    | ok _ => exact touches_conclude _ r run
    | error e => exact touches_finish _ run _
  | panicked => exact .nothing (untouched_setRun _ run _)

/-- A run starts the pruner before it follows the chain. -/
theorem touches_follow (s : Synchronizer) (r : Replies) (run : Nat) :
    Touches run s (s.follow r run) := by
  unfold follow
  split
  · next hcurrent =>
    apply Touches.trans (.startPruner hcurrent)
    dsimp only
    split
    · exact touches_conclude _ r run
    · next f _ =>
      apply Touches.trans (.nothing (untouched_call _ .startFullSync rfl))
      exact touches_afterFullSync _ r run _ (f.start.grows_resume r _ _ _ _)
  · exact touches_finish s run _

/-- A hand-over touches what following the chain touches. -/
theorem touches_handOver (s : Synchronizer) (r : Replies) (run : Nat) (pivot : SealedHeader) :
    Touches run s (s.handOver r run pivot) := by
  unfold handOver
  apply Touches.trans (.nothing (s.untouched_call .deletePivot rfl))
  cases r.delete with
  | error f => exact touches_finish _ run _
  | ok _ =>
    apply Touches.trans (.nothing (untouched_call _ (.anchor pivot) rfl))
    cases r.anchor with
    | error f => exact touches_finish _ run _
    | ok _ =>
      apply Touches.trans (.nothing (untouched_call _ .closeSelector rfl))
      apply Touches.trans (.nothing (untouched_change _ .initialDone))
      apply Touches.trans (.nothing (untouched_enableFallback _ r))
      apply Touches.trans (.nothing (untouched_call _ (.consultTermination r.overAfterCatchUp) rfl))
      dsimp only
      split
      · exact .trans (.nothing (untouched_change _ _)) (touches_finish _ run _)
      · exact touches_follow _ r run

/-- **What a step does to the switches.** -/
theorem touches_resume (s : Synchronizer) (r : Replies) (run : Nat) (event : Event) :
    Touches run s (s.resume r run event) := by
  unfold resume
  split
  · split
    · exact .trans (.nothing (untouched_change s _))
        (.trans (.nothing (untouched_enableFallback _ r)) (touches_follow _ r run))
    · exact .nothing (.refl s)
  · next downloader arming stage _ =>
    split
    · next c _ =>
      have hgrows := c.grows_resume r s.book arming stage event
      generalize c.resume r s.book arming stage event = o at hgrows ⊢
      have hlength : s.catchUps.length ≤ (s.catchUps.set downloader o.catchUp).length :=
        Nat.le_of_eq List.length_set.symm
      apply Touches.trans (.nothing (untouched_of_grows hgrows hlength s.fullSync))
      unfold afterCatchUp
      dsimp only
      split
      · exact .nothing (untouched_setRun _ run _)
      · exact .nothing (untouched_setRun _ run _)
      · split
        · split
          · exact touches_handOver _ r run _
          · exact touches_finish _ run _
        · exact touches_finish _ run _
    · exact .nothing (.refl s)
  · next arming stage _ =>
    split
    · next f _ => exact touches_afterFullSync s r run arming (f.grows_resume r _ _ _ _)
    · exact .nothing (.refl s)
  · exact .nothing (.refl s)

/-- **A run that is not the latest touches nothing.** -/
theorem Touches.untouched_of_older (h : Touches run s t) (hold : run + 1 < s.runs.length) :
    s.Untouched t := by
  induction h with
  | nothing h => exact h
  | startPruner hcurrent =>
    have hlast : run + 1 = _ := (isCurrent_iff.mp hcurrent).2
    simp only [wiring, List.length_map] at hlast
    omega
  | windDown s =>
    rw [windDown_of_ne (by omega)]
    exact .refl s
  | trans _ _ ih ih' =>
    have hfirst := ih hold
    exact hfirst.trans (ih' (by rw [hfirst.runs]; exact hold))

/-- **A step adds no run, lets none become active, and does away with no downloader.** -/
theorem Touches.le (h : Touches run s t) :
    t.runs.length = s.runs.length ∧ (t.running = true → s.running = true) ∧
      s.catchUps.length ≤ t.catchUps.length := by
  induction h with
  | nothing h => exact ⟨h.runs, fun hrunning => h.running ▸ hrunning, h.catchUps⟩
  | startPruner =>
    rw [callIf_eq]
    exact ⟨rfl, fun hrunning => hrunning, Nat.le_refl _⟩
  | windDown s =>
    by_cases hlast : run + 1 = s.runs.length
    · rw [windDown_of_eq hlast, callIf_eq, callIf_eq]
      exact ⟨rfl, Bool.noConfusion, Nat.le_refl _⟩
    · rw [windDown_of_ne hlast]
      exact ⟨rfl, fun hrunning => hrunning, Nat.le_refl _⟩
  | trans _ _ ih ih' =>
    exact ⟨ih'.1.trans ih.1, fun hrunning => ih.2.1 (ih'.2.1 hrunning), Nat.le_trans ih.2.2 ih'.2.2⟩

/-! ### The switches follow the active run -/

/-- Block propagation is on exactly while a run is active, and the pruner only then. -/
structure Switched (s : Synchronizer) : Prop where
  /-- Block propagation, if there is any, is on exactly while a run is active. -/
  propagating : s.propagates = true → s.propagating = s.running
  /-- The pruner is on only if there is one and a run is active. -/
  pruning : s.pruning = true → s.prunes = true ∧ s.running = true

/-- What switches block propagation is the last thing done to it. -/
theorem propagating_callIf (s : Synchronizer) (condition : Bool) {c : Call}
    (hc : c.switchesPropagation = true) :
    (s.callIf condition c).propagating =
      if condition then c == .startPropagation else s.propagating := by
  unfold propagating
  rw [only_callIf_of s condition hc]
  split
  · rw [List.getLast?_concat]
    rfl
  · rfl

/-- What does not switch block propagation leaves it on or off. -/
theorem propagating_callIf_of_not (s : Synchronizer) (condition : Bool) {c : Call}
    (hc : c.switchesPropagation = false) : (s.callIf condition c).propagating = s.propagating := by
  unfold propagating
  rw [only_callIf_of_not s condition hc]

/-- What switches the pruner is the last thing done to it. -/
theorem pruning_callIf (s : Synchronizer) (condition : Bool) {c : Call}
    (hc : c.switchesPruner = true) :
    (s.callIf condition c).pruning = if condition then c == .startPruner else s.pruning := by
  unfold pruning
  rw [only_callIf_of s condition hc]
  split
  · rw [List.getLast?_concat]
    rfl
  · rfl

/-- What does not switch the pruner leaves it on or off. -/
theorem pruning_callIf_of_not (s : Synchronizer) (condition : Bool) {c : Call}
    (hc : c.switchesPruner = false) : (s.callIf condition c).pruning = s.pruning := by
  unfold pruning
  rw [only_callIf_of_not s condition hc]

/-- What leaves the switches alone leaves them as they are. -/
theorem Untouched.propagating (h : s.Untouched t) : t.propagating = s.propagating := by
  have hnarrow : ∀ c : Call, c.switchesPropagation = true → c.switches = true :=
    fun c hc => by rw [Call.switches, hc, Bool.true_or]
  unfold Synchronizer.propagating
  rw [t.book.only_of_only hnarrow, s.book.only_of_only hnarrow, h.switches]

/-- What leaves the switches alone leaves them as they are. -/
theorem Untouched.pruning (h : s.Untouched t) : t.pruning = s.pruning := by
  have hnarrow : ∀ c : Call, c.switchesPruner = true → c.switches = true :=
    fun c hc => by rw [Call.switches, hc, Bool.or_true]
  unfold Synchronizer.pruning
  rw [t.book.only_of_only hnarrow, s.book.only_of_only hnarrow, h.switches]

/-- What leaves the switches alone keeps them with the active run. -/
theorem Switched.of_untouched (h : s.Switched) (huntouched : s.Untouched t) : t.Switched := by
  constructor
  · rw [huntouched.propagates, huntouched.propagating, huntouched.running]
    exact h.propagating
  · rw [huntouched.pruning, huntouched.prunes, huntouched.running]
    exact h.pruning

/-- Without an active run all has to be off. -/
theorem switched_of_off (hrunning : t.running = false)
    (hpropagating : t.propagates = true → t.propagating = false) (hpruning : t.pruning = false) :
    t.Switched := by
  constructor
  · intro hpropagates
    rw [hpropagating hpropagates, hrunning]
  · intro h
    rw [hpruning] at h
    cases h

/-- Where there is no pruner it is never on. -/
theorem Switched.pruning_of_not_prunes (h : s.Switched) (hprunes : s.prunes = false) :
    s.pruning = false := by
  cases hpruning : s.pruning with
  | false => rfl
  | true =>
    rw [(h.pruning hpruning).1] at hprunes
    cases hprunes

/-- While no run is active the pruner is off. -/
theorem Switched.pruning_of_not_running (h : s.Switched) (hrunning : s.running = false) :
    s.pruning = false := by
  cases hpruning : s.pruning with
  | false => rfl
  | true =>
    rw [(h.pruning hpruning).2] at hrunning
    cases hrunning

/-- To wind down is to switch off. -/
theorem Switched.windDown (h : s.Switched) (run : Nat) : (s.windDown run).Switched := by
  by_cases hlast : run + 1 = s.runs.length
  · rw [windDown_of_eq hlast]
    refine switched_of_off rfl (fun hpropagates => ?_) ?_
    · simp only [callIf_eq] at hpropagates
      show ((s.callIf s.propagates .stopPropagation).callIf s.prunes .stopPruner).propagating =
        false
      rw [propagating_callIf_of_not _ _ rfl, propagating_callIf _ _ rfl, hpropagates]
      rfl
    · show ((s.callIf s.propagates .stopPropagation).callIf s.prunes .stopPruner).pruning = false
      rw [pruning_callIf _ _ rfl, pruning_callIf_of_not _ _ rfl]
      split
      · rfl
      · next hprunes => exact h.pruning_of_not_prunes ((Bool.not_eq_true _).mp hprunes)
  · rw [windDown_of_ne hlast]
    exact h

/-- **A step keeps the switches with the active run.** -/
theorem Touches.switched (h : Touches run s t) (hs : s.Switched) : t.Switched := by
  induction h with
  | nothing h => exact hs.of_untouched h
  | @startPruner s hcurrent =>
    have hrunning : s.running = true := (isCurrent_iff.mp hcurrent).1
    constructor
    · intro hpropagates
      rw [propagating_callIf_of_not _ _ rfl]
      rw [callIf_eq] at hpropagates ⊢
      exact hs.propagating hpropagates
    · intro hpruning
      rw [pruning_callIf _ _ rfl] at hpruning
      rw [callIf_eq]
      split at hpruning
      · next hprunes => exact ⟨hprunes, hrunning⟩
      · exact hs.pruning hpruning
  | windDown s => exact hs.windDown run
  | trans _ _ ih ih' => exact ih' (ih hs)

/-- To stop does not do away with block propagation. -/
theorem propagates_stop (s : Synchronizer) (r : Replies) :
    (s.stop r).propagates = s.propagates := by
  cases hrunning : s.running with
  | false => rw [stop_of_not_running hrunning]
  | true => rw [stop_of_running hrunning, callIf_eq, callIf_eq]

/-- To stop is to switch off, if block propagation says whether it is on. -/
theorem Switched.stop (h : s.Switched) {r : Replies}
    (hr : s.propagates = true → r.propagating = s.propagating) : (s.stop r).Switched := by
  cases hrunning : s.running with
  | false => rwa [stop_of_not_running hrunning]
  | true =>
    refine switched_of_off (running_stop s r) (fun hpropagates => ?_) ?_
    · rw [stop_of_running hrunning] at hpropagates ⊢
      simp only [callIf_eq] at hpropagates
      rw [propagating_callIf _ _ rfl, propagating_callIf_of_not _ _ rfl]
      split
      · rfl
      · next hoff =>
        rw [hpropagates, Bool.true_and, hr hpropagates] at hoff
        exact (Bool.not_eq_true _).mp hoff
    · rw [stop_of_running hrunning, pruning_callIf_of_not _ _ rfl, pruning_callIf _ _ rfl]
      split
      · rfl
      · next hprunes => exact h.pruning_of_not_prunes ((Bool.not_eq_true _).mp hprunes)

/-- To start is to switch on, if block propagation says whether it is on. -/
theorem Switched.start (h : s.Switched) {r : Replies}
    (hr : s.propagates = true → r.propagating = s.propagating) (ht : s.start r = .ok t) :
    t.Switched := by
  cases hrunning : s.running with
  | false =>
    rw [start_of_not_running hrunning] at ht
    obtain rfl := Except.ok.inj ht
    constructor
    · intro hpropagates
      simp only [callIf_eq] at hpropagates
      have hoff : r.propagating = false := by
        rw [hr hpropagates, h.propagating hpropagates, hrunning]
      rw [propagating_callIf _ _ rfl, callIf_eq, hpropagates, hoff]
      rfl
    · intro hpruning
      rw [pruning_callIf_of_not _ _ rfl] at hpruning
      have hoff : s.pruning = false := h.pruning_of_not_running hrunning
      exact absurd (hpruning.symm.trans hoff) Bool.noConfusion
  | true => rw [start_of_running hrunning] at ht; cases ht

/-- **Whatever truthfully happens keeps the switches with the active run.** -/
theorem Switched.act (h : s.Switched) {x : Act} (hx : x.Truthful s) : (s.act x).Switched := by
  cases x with
  | start r =>
    dsimp only [Synchronizer.act]
    split
    · next t hstart => exact h.start hx hstart
    · exact h
  | stop r => exact h.stop hx
  | resync r r' =>
    have huntouched := s.untouched_discarded r
    have hpropagates : (s.discarded r).propagates = s.propagates :=
      huntouched.propagates.trans (s.propagates_stop r)
    have hdiscarded := (h.stop fun hp => (hx hp).1).of_untouched huntouched
    refine hdiscarded.start (fun hp => ?_) (s.start_discarded r r')
    rw [huntouched.propagating]
    exact (hx (hpropagates ▸ hp)).2
  | step r run event => exact (touches_resume s r run event).switched h
  | announce state => exact h.of_untouched (s.untouched_announce state)
  | operate op => exact h.of_untouched (s.untouched_perform op)

/-- At first all is off. -/
theorem Pristine.switched (h : s.Pristine) : s.Switched := by
  refine switched_of_off h.running (fun _ => ?_) ?_
  · unfold propagating Logbook.only
    rw [h.calls]
    rfl
  · unfold pruning Logbook.only
    rw [h.calls]
    rfl

/-- **The switches follow the active run through every truthful history.** -/
theorem Pristine.switched_after (hs : s.Pristine) {h : List Act} (hh : Truthful s h) :
    (s.after h).Switched :=
  truthful_induction Switched hs.switched (fun _ _ ht hx => ht.act hx) hh

/-! ### The lifecycle -/

/-- Without an active run nothing is armed. -/
theorem unarmed_of_not_running (h : s.wiring.Sound) (hrunning : s.running = false) :
    (∀ c ∈ s.catchUps, c.signal.isArmed = false) ∧
      ∀ f, s.fullSync = some f → f.signal.isArmed = false := by
  constructor
  · intro c hc
    obtain ⟨downloader, hc⟩ := List.mem_iff_getElem?.mp hc
    exact h.isArmed_eq_false hrunning (signal?_of_catchUps hc)
  · intro f hf
    exact h.isArmed_eq_false hrunning (signal?_of_fullSync hf)

/-- A downloader for catching up and full sync are not armed at the same time. -/
theorem not_both_armed (h : s.wiring.Sound) {c : CatchUp} (hc : c ∈ s.catchUps) {f : FullSync}
    (hf : s.fullSync = some f) : ¬ (c.signal.isArmed = true ∧ f.signal.isArmed = true) := by
  rintro ⟨hcArmed, hfArmed⟩
  obtain ⟨downloader, hc⟩ := List.mem_iff_getElem?.mp hc
  have hsame : Source.catchUp downloader = .fullSync :=
    h.armed_unique (signal?_of_catchUps hc) (signal?_of_fullSync hf) hcArmed hfArmed
  cases hsame

/-- To start fails exactly while a run is active, and always for that reason. -/
theorem start_eq_error_iff {r : Replies} {e : LifecycleError} :
    s.start r = .error e ↔ e = .alreadyRunning ∧ s.running = true := by
  constructor
  · intro hstart
    cases hrunning : s.running with
    | true =>
      rw [start_of_running hrunning] at hstart
      exact ⟨(Except.error.inj hstart).symm, rfl⟩
    | false =>
      rw [start_of_not_running hrunning] at hstart
      cases hstart
  · rintro ⟨rfl, hrunning⟩
    exact start_of_running hrunning r

/-- Where nothing can be started nothing happens. -/
theorem act_start_of_error {r : Replies} {e : LifecycleError} (h : s.start r = .error e) :
    s.act (.start r) = s := by
  dsimp only [Synchronizer.act]
  rw [h]

/-- What can be started is started. -/
theorem act_start_of_ok {r : Replies} (h : s.start r = .ok t) : s.act (.start r) = t := by
  dsimp only [Synchronizer.act]
  rw [h]

/-- **The lifecycle of a synchronizer.** Assemble one and let anything happen to it, in any order,
while block propagation says whether it is on. Then, after any such history:

* block propagation, if there is any, is on exactly while a run is active;
* without an active run the pruner is off, and neither a downloader for catching up, be it current
  or discarded, nor full sync is armed;
* a downloader for catching up and full sync are never armed at the same time;
* to start fails exactly while a run is active, always for that reason, and then nothing changes;
* whatever a step of a run does that is not the latest, be it its last, an active run stays active
  and nothing is switched on or off. -/
theorem lifecycle {config : SyncConfig} {has : Collaborators} {isOver : Bool} {idle : Duration}
    {state : Option State} {s₀ : Synchronizer}
    (hs : assemble config has isOver idle state = .ok s₀) {h : List Act} (hh : Truthful s₀ h) :
    let s := s₀.after h
    (s.propagates = true → s.propagating = s.running) ∧
    (s.running = false → s.pruning = false ∧ (∀ c ∈ s.catchUps, c.signal.isArmed = false) ∧
      ∀ f, s.fullSync = some f → f.signal.isArmed = false) ∧
    (∀ c ∈ s.catchUps, ∀ f, s.fullSync = some f →
      ¬ (c.signal.isArmed = true ∧ f.signal.isArmed = true)) ∧
    (∀ r, (s.start r = .error .alreadyRunning ↔ s.running = true) ∧
      ∀ e, s.start r = .error e → e = .alreadyRunning ∧ s.act (.start r) = s) ∧
    (∀ r run event, run + 1 < s.runs.length →
      let t := s.resume r run event
      t.running = s.running ∧ t.propagating = s.propagating ∧ t.pruning = s.pruning ∧
        t.book.only Call.switches = s.book.only Call.switches) := by
  intro s
  have hpristine := (pristine_assemble hs).1
  have hswitched : s.Switched := hpristine.switched_after hh
  have hsound : s.wiring.Sound := hpristine.sound_after h
  refine ⟨hswitched.propagating, ?_, ?_, ?_, ?_⟩
  · intro hrunning
    exact ⟨hswitched.pruning_of_not_running hrunning, unarmed_of_not_running hsound hrunning⟩
  · intro c hc f hf
    exact not_both_armed hsound hc hf
  · intro r
    constructor
    · rw [start_eq_error_iff, and_iff_right rfl]
    · intro e hstart
      exact ⟨(start_eq_error_iff.mp hstart).1, act_start_of_error hstart⟩
  · intro r run event hold t
    have huntouched := (touches_resume s r run event).untouched_of_older hold
    exact ⟨huntouched.running, huntouched.propagating, huntouched.pruning, huntouched.switches⟩

/-- A run is stopped while it waits, and notices only after the next one began. -/
def overtaken : List Act :=
  [.start (agreeable false), .step (agreeable true) 0 .begun, .stop (agreeable true),
    .start (agreeable false), .step (agreeable true) 0 .stopSignalled]

/-- A run that was overtaken leaves block propagation to the run that overtook it. -/
theorem lifecycle_of_overtaken :
    assemble {} {} false FullSync.defaultIdle none = .ok usual ∧ Truthful usual overtaken ∧
      (usual.after overtaken).running = true ∧ (usual.after overtaken).propagating = true := by
  have hh : Truthful usual overtaken :=
    ⟨fun _ => rfl, trivial, fun _ => rfl, fun _ => rfl, trivial, trivial⟩
  refine ⟨assemble_usual, hh, rfl, ?_⟩
  rw [(lifecycle assemble_usual hh).1 rfl]
  rfl

end Synchronizer

end ExecutionNode.Sync
