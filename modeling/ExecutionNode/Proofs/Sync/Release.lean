import ExecutionNode.Proofs.Sync.Aftermath

/-!
# How a run gives the node back

A run that has ended must leave nothing on behind itself, or the node could not be started again.
Every way to end goes through `finish`, and winding down is the last thing it does; so it has to be
shown that nothing comes after it, neither in that step nor in a later one.

* `Leaves` says how a step leaves its run: it has not ended, and then a run is active as before, or
  it has ended, and then to wind down came last.  `leaves_resume` is the inversion.
* `Releases` is the invariant: if the latest run has ended, all is off.  It holds in every history,
  whatever block propagation says (`Pristine.releases_after`).
* `released_of_ended` puts this together.  A run that broke down is the exception: it winds nothing
  down, so that the node stays taken until it is stopped or starts over.
* `breakdown_takes_node`: the exception occurs.
-/

namespace ExecutionNode.Sync

namespace Synchronizer

variable {s t u : Synchronizer} {run : Nat}

/-- The node is free: no run is active, and neither block propagation nor the pruner is on. -/
structure Released (s : Synchronizer) : Prop where
  /-- No run is active. -/
  running : s.running = false
  /-- Block propagation, if there is any, is off. -/
  propagating : s.propagates = true → s.propagating = false
  /-- The pruner, if there is one, is off. -/
  pruning : s.prunes = true → s.pruning = false

/-! ### How a step leaves its run -/

/-- How a step leaves its run. -/
inductive Leaves (run : Nat) (s : Synchronizer) : Synchronizer → Prop where
  /-- It has not ended, and a run is active as before. -/
  | unended {t : Synchronizer} (hrun : ∀ result, t.runs[run]? ≠ some (.ended result))
      (hrunning : t.running = s.running) : Leaves run s t
  /-- It has ended, and to wind down came last. -/
  | ended {u : Synchronizer} (h : Touches run s u) (result : Except RunError Unit) :
      Leaves run s (u.finish run result)

/-- What goes before may touch something, as long as a run is active as before. -/
theorem Leaves.of_touches (h : Leaves run t u) (htouches : Touches run s t)
    (hrunning : t.running = s.running) : Leaves run s u := by
  cases h with
  | unended hrun hsame => exact .unended hrun (hsame.trans hrunning)
  | ended h result => exact .ended (htouches.trans h) result

/-- What goes before may leave the switches alone. -/
theorem Leaves.of_untouched (h : Leaves run t u) (huntouched : s.Untouched t) : Leaves run s u :=
  h.of_touches (.nothing huntouched) huntouched.running

/-- A run that ends winds down last. -/
theorem leaves_finish (s : Synchronizer) (run : Nat) (result : Except RunError Unit) :
    Leaves run s (s.finish run result) :=
  .ended (.nothing (.refl s)) result

/-- A run of which something else is noted has not ended. -/
theorem leaves_setRun (s : Synchronizer) (run : Nat) {stage : Run}
    (hstage : ∀ result, stage ≠ .ended result) : Leaves run s (s.setRun run stage) := by
  refine .unended (fun result => ?_) rfl
  show (s.runs.set run stage)[run]? ≠ _
  rw [List.getElem?_set_self']
  cases s.runs[run]? with
  | none => exact nofun
  | some x => exact fun h => hstage result (Option.some.inj h)

/-- A run that has nothing left to download winds down last. -/
theorem leaves_conclude (s : Synchronizer) (r : Replies) (run : Nat) :
    Leaves run s (s.conclude r run) := by
  have hconsult := s.untouched_call (.consultTermination r.overAtEnd) rfl
  unfold conclude
  dsimp only
  split
  · exact (leaves_finish _ run _).of_untouched (hconsult.trans (untouched_change _ _))
  · exact (leaves_finish _ run _).of_untouched hconsult

/-- A run that follows the chain winds down last, if it ends. -/
theorem leaves_afterFullSync (s : Synchronizer) (r : Replies) (run arming : Nat)
    {o : FullSync.Outcome} (h : s.book.Grows o.book) :
    Leaves run s (s.afterFullSync r run arming o) := by
  refine Leaves.of_untouched ?_ (untouched_of_grows h (Nat.le_refl _) (some o.fullSync))
  unfold afterFullSync
  dsimp only
  cases o.turn with
  | waiting stage => exact leaves_setRun _ run nofun
  | ended result =>
    cases result with
    | ok _ => exact leaves_conclude _ r run
    | error e => exact leaves_finish _ run _
  | panicked => exact leaves_setRun _ run nofun

/-- A run that goes on with full sync winds down last, if it ends. -/
theorem leaves_follow (s : Synchronizer) (r : Replies) (run : Nat) :
    Leaves run s (s.follow r run) := by
  unfold follow
  split
  · next hcurrent =>
    refine Leaves.of_touches ?_ (.startPruner hcurrent) (by rw [callIf_eq])
    dsimp only
    split
    · exact leaves_conclude _ r run
    next f _ =>
      refine Leaves.of_untouched ?_ (untouched_call _ .startFullSync rfl)
      exact leaves_afterFullSync _ r run _ (f.start.grows_resume r _ _ _ _)
  · exact leaves_finish s run _

/-- A run that hands over winds down last, if it ends. -/
theorem leaves_handOver (s : Synchronizer) (r : Replies) (run : Nat) (pivot : SealedHeader) :
    Leaves run s (s.handOver r run pivot) := by
  have hdelete := s.untouched_call .deletePivot rfl
  cases hfault : r.delete with
  | error f =>
    rw [s.handOver_of_delete_error run pivot hfault]
    exact (leaves_finish _ run _).of_untouched hdelete
  | ok _ =>
    have hanchor := hdelete.trans (untouched_call _ (.anchor pivot) rfl)
    cases hfault' : r.anchor with
    | error f =>
      rw [s.handOver_of_anchor_error run pivot hfault hfault']
      exact (leaves_finish _ run _).of_untouched hanchor
    | ok _ =>
      have harrived : s.Untouched (s.arrived r pivot) :=
        (((hanchor.trans (untouched_call _ .closeSelector rfl)).trans
          (untouched_change _ .initialDone)).trans (untouched_enableFallback _ r)).trans
            (untouched_call _ (.consultTermination r.overAfterCatchUp) rfl)
      rw [s.handOver_of_ok run pivot hfault hfault']
      split
      · exact (leaves_finish _ run _).of_untouched (harrived.trans (untouched_change _ _))
      · exact (leaves_follow _ r run).of_untouched harrived

/-- **How a step leaves its run**, if that has not ended before. -/
theorem leaves_resume (hrun : ∀ result, s.runs[run]? ≠ some (.ended result)) (r : Replies)
    (event : Event) : Leaves run s (s.resume r run event) := by
  have hstays : Leaves run s s := .unended hrun rfl
  unfold resume
  split
  · split
    · exact (leaves_follow _ r run).of_untouched
        ((untouched_change s _).trans (untouched_enableFallback _ r))
    · exact hstays
  · next downloader arming stage _ =>
    split
    · next c _ =>
      have hgrows := c.grows_resume r s.book arming stage event
      generalize c.resume r s.book arming stage event = o at hgrows ⊢
      have hlength : s.catchUps.length ≤ (s.catchUps.set downloader o.catchUp).length :=
        Nat.le_of_eq List.length_set.symm
      refine Leaves.of_untouched ?_ (untouched_of_grows hgrows hlength s.fullSync)
      unfold afterCatchUp
      dsimp only
      split
      · exact leaves_setRun _ run nofun
      · exact leaves_setRun _ run nofun
      · split
        · split
          · exact leaves_handOver _ r run _
          · exact leaves_finish _ run _
        · exact leaves_finish _ run _
    · exact hstays
  · next arming stage _ =>
    split
    next f _ => exact leaves_afterFullSync s r run arming (f.grows_resume r _ _ _ _)
    · exact hstays
  · exact hstays

/-! ### Once all is off -/

/-- What leaves the switches alone leaves a free node free. -/
theorem Released.of_untouched (h : s.Released) (huntouched : s.Untouched t) : t.Released := by
  refine ⟨huntouched.running.trans h.running, fun hpropagates => ?_, fun hprunes => ?_⟩
  · rw [huntouched.propagating]
    exact h.propagating (huntouched.propagates ▸ hpropagates)
  · rw [huntouched.pruning]
    exact h.pruning (huntouched.prunes ▸ hprunes)

/-- A free node can be started. -/
theorem Released.exists_start (h : s.Released) (r : Replies) : ∃ t, s.start r = .ok t :=
  ⟨_, start_of_not_running h.running r⟩

/-- The latest run frees the node when it ends. -/
theorem released_finish (hlast : run + 1 = s.runs.length) (result : Except RunError Unit) :
    (s.finish run result).Released := by
  have hlast' : run + 1 = (s.setRun run (.ended result)).runs.length := by
    rw [hlast]
    exact List.length_set.symm
  unfold finish
  rw [windDown_of_eq hlast']
  generalize s.setRun run (.ended result) = t
  refine ⟨rfl, fun hpropagates => ?_, fun hprunes => ?_⟩
  · show ((t.callIf t.propagates .stopPropagation).callIf t.prunes .stopPruner).propagating = false
    simp only [callIf_eq] at hpropagates
    rw [propagating_callIf_of_not _ _ rfl, propagating_callIf _ _ rfl, hpropagates]
    rfl
  · show ((t.callIf t.propagates .stopPropagation).callIf t.prunes .stopPruner).pruning = false
    simp only [callIf_eq] at hprunes
    rw [pruning_callIf _ _ rfl, hprunes]
    rfl

/-- A step of a run that is not the latest, or that there is not, leaves the switches alone, and so
does one of a run that has nothing left to do. -/
theorem untouched_resume_of_idle (hlast : run + 1 = s.runs.length)
    (hidle : ∀ r event, s.resume r run event = s) (r : Replies) (other : Nat) (event : Event) :
    s.Untouched (s.resume r other event) := by
  rcases Nat.lt_trichotomy other run with hlt | rfl | hgt
  · exact (touches_resume s r other event).untouched_of_older (by omega)
  · rw [hidle]
    exact .refl s
  · rw [resume_of_none (List.getElem?_eq_none (by omega))]
    exact .refl s

/-- A run that has ended makes no step. -/
theorem resume_of_ended {result : Except RunError Unit} (h : s.runs[run]? = some (.ended result))
    (r : Replies) (event : Event) : s.resume r run event = s := by
  unfold resume
  rw [h]

/-- A run that broke down makes no step. -/
theorem resume_of_panicked (h : s.runs[run]? = some .panicked) (r : Replies) (event : Event) :
    s.resume r run event = s := by
  unfold resume
  rw [h]

/-- A node that is free after its latest run stays so until the next run. -/
theorem Released.act (h : s.Released) (hlast : run + 1 = s.runs.length)
    {result : Except RunError Unit} (hrun : s.runs[run]? = some (.ended result)) {a : Act}
    (hlength : (s.act a).runs.length = s.runs.length) : (s.act a).Released := by
  cases a with
  | start r =>
    obtain ⟨t, ht⟩ := h.exists_start r
    rw [act_start_of_ok ht, s.length_runs_start ht] at hlength
    omega
  | stop r =>
    rw [show s.act (.stop r) = s from stop_of_not_running h.running r]
    exact h
  | resync r r' =>
    rw [show (s.act (.resync r r')).runs.length = _ from s.length_runs_resync r r'] at hlength
    omega
  | step r other event =>
    exact h.of_untouched (untouched_resume_of_idle hlast (resume_of_ended hrun) r other event)
  | announce state => exact h.of_untouched (s.untouched_announce state)
  | operate op => exact h.of_untouched (s.untouched_perform op)

/-! ### The invariant -/

/-- If the latest run has ended, all is off. -/
def Releases (s : Synchronizer) : Prop :=
  ∀ run result, run + 1 = s.runs.length → s.runs[run]? = some (.ended result) → s.Released

/-- **Whatever happens, all is off if the latest run has ended**: either it just ended, or it had
ended before and nothing was started since. -/
theorem Releases.act (h : s.Releases) (a : Act) : (s.act a).Releases := by
  intro run result hlast hended
  rcases run_act_cases s a hended with ⟨x, hx, hcases⟩ | hnew
  · have hlength : (s.act a).runs.length = s.runs.length := by
      have hlt := (List.getElem?_eq_some_iff.mp hx).1
      have hle := s.length_runs_act a
      omega
    rw [hlength] at hlast
    by_cases hbefore : ∃ result', x = .ended result'
    · obtain ⟨result', rfl⟩ := hbefore
      exact (h run result' hlast hx).act hlast hx hlength
    · rcases hcases with rfl | ⟨r, event, rfl, -⟩
      · exact absurd ⟨result, rfl⟩ hbefore
      · have hleaves : Leaves run s (s.resume r run event) :=
          leaves_resume (fun result' hx' => hbefore ⟨result', Option.some.inj (hx.symm.trans hx')⟩)
            r event
        change (s.resume r run event).runs[run]? = _ at hended
        change (s.resume r run event).Released
        generalize s.resume r run event = t at hleaves hended
        cases hleaves with
        | unended hrun => exact absurd hended (hrun result)
        | ended htouches result' => exact released_finish (by rw [htouches.le.1, hlast]) result'
  · exact hnew.elim

/-- **If the latest run has ended, all is off, after every history.** -/
theorem Pristine.releases_after (hs : s.Pristine) (h : List Act) : (s.after h).Releases := by
  refine after_induction Releases (fun _ => True) (fun run result hlast => ?_)
    (fun _ a ht _ => ht.act a) fun _ _ => trivial
  rw [hs.runs] at hlast
  cases hlast

/-! ### Runs that broke down -/

/-- The current run broke down. -/
def IsTaken (s : Synchronizer) (run : Nat) : Prop :=
  s.isCurrent run = true ∧ s.runs[run]? = some .panicked

/-- A current run that breaks down stays current. -/
theorem isCurrent_resume_of_panicked (hcurrent : s.isCurrent run = true) {r : Replies}
    {event : Event} (h : (s.resume r run event).runs[run]? = some .panicked) :
    (s.resume r run event).isCurrent run = true := by
  obtain ⟨hrunning, hlast⟩ := isCurrent_iff.mp hcurrent
  have hlength := (s.touches_resume r run event).le.1
  by_cases hended : ∃ result, s.runs[run]? = some (.ended result)
  · obtain ⟨result, hended⟩ := hended
    rwa [resume_of_ended hended]
  · have hleaves := leaves_resume (fun result hx => hended ⟨result, hx⟩) r event
    generalize s.resume r run event = t at hleaves h hlength
    cases hleaves with
    | unended _ hsame =>
      rw [isCurrent, hsame, hlength]
      exact hcurrent
    | @ended u htouches result =>
      rw [runs_finish, List.getElem?_set_self'] at h
      cases hu : u.runs[run]? <;> rw [hu] at h <;> cases h

/-- **A run that broke down keeps the node**: nothing but to stop or to start over changes what is
on. -/
theorem IsTaken.act (h : s.IsTaken run) {a : Act} (ha : ¬ a.Ends) :
    s.Untouched (s.act a) ∧ (s.act a).IsTaken run := by
  obtain ⟨hcurrent, hrun⟩ := h
  have hlast := eq_length_of_isCurrent hcurrent
  have hkept : ∀ {t : Synchronizer}, s.Untouched t → t.runs[run]? = some .panicked →
      s.Untouched t ∧ t.IsTaken run := by
    intro t huntouched hrun'
    refine ⟨huntouched, ?_, hrun'⟩
    rw [isCurrent, huntouched.running, huntouched.runs]
    exact hcurrent
  obtain ⟨x, hx, hcases⟩ := exists_run_act hrun a
  have hx : (s.act a).runs[run]? = some .panicked := by
    rcases hcases with rfl | ⟨r, event, rfl, -⟩
    · exact hx
    · rwa [show s.act (.step r run event) = s from resume_of_panicked hrun r event]
  refine hkept ?_ hx
  cases a with
  | start r =>
    rw [act_start_of_error (start_of_running (isCurrent_iff.mp hcurrent).1 r)]
    exact .refl s
  | stop r => exact absurd trivial ha
  | resync r r' => exact absurd trivial ha
  | step r other event =>
    exact untouched_resume_of_idle hlast (resume_of_panicked hrun) r other event
  | announce state => exact s.untouched_announce state
  | operate op => exact s.untouched_perform op

/-- **A run that broke down keeps the node in every history** in which nobody stops it or starts
over. -/
theorem IsTaken.after (h : s.IsTaken run) {rest : List Act} (hrest : ∀ a ∈ rest, ¬ a.Ends) :
    s.Untouched (s.after rest) ∧ (s.after rest).IsTaken run :=
  after_induction (fun t => s.Untouched t ∧ t.IsTaken run) (fun a => ¬ a.Ends) ⟨.refl s, h⟩
    (fun _ _ ht ha => ⟨ht.1.trans (ht.2.act ha).1, (ht.2.act ha).2⟩) hrest

/-- **What a run gives back.** Assemble a synchronizer and let anything happen to it, in any order
and whatever the collaborators answer. Then, after any such history:

* if the latest run has ended, in whatever way, no run is active, block propagation and the pruner
  are off, and the synchronizer can be started;
* so it is too if the latest run broke down and was stopped, as long as block propagation says
  whether it is on;
* a run that breaks down while it is current stays current. From then on, until somebody stops the
  synchronizer or starts over, what is on stays on and it cannot be started. To stop it frees it. -/
theorem released_of_ended {config : SyncConfig} {has : Collaborators} {isOver : Bool}
    {idle : Duration} {state : Option State} {s₀ : Synchronizer}
    (hs : assemble config has isOver idle state = .ok s₀) (h : List Act) :
    let s := s₀.after h
    (∀ run result, run + 1 = s.runs.length → s.runs[run]? = some (.ended result) →
      s.Released ∧ ∀ r, ∃ t, s.start r = .ok t) ∧
    (∀ run, run + 1 = s.runs.length → s.runs[run]? = some .panicked → s.running = false →
      Truthful s₀ h → s.Released ∧ ∀ r, ∃ t, s.start r = .ok t) ∧
    (∀ run, s.isCurrent run = true →
      (∀ r event, (s.resume r run event).runs[run]? = some .panicked →
        (s.resume r run event).isCurrent run = true) ∧
      (s.runs[run]? = some .panicked →
        (Truthful s₀ h → s.propagates = true → s.propagating = true) ∧
        (∀ rest, (∀ a ∈ rest, ¬ a.Ends) → s.Untouched (s.after rest) ∧
          ∀ r, (s.after rest).start r = .error .alreadyRunning) ∧
        ∀ r r', ∃ t, (s.stop r).start r' = .ok t)) := by
  intro s
  have hpristine := (pristine_assemble hs).1
  refine ⟨?_, ?_, ?_⟩
  · intro run result hlast hended
    have hreleased : s.Released := hpristine.releases_after h run result hlast hended
    exact ⟨hreleased, hreleased.exists_start⟩
  · intro run _ _ hrunning hh
    have hswitched : s.Switched := hpristine.switched_after hh
    have hreleased : s.Released :=
      ⟨hrunning, fun hp => (hswitched.propagating hp).trans hrunning,
        fun _ => hswitched.pruning_of_not_running hrunning⟩
    exact ⟨hreleased, hreleased.exists_start⟩
  · intro run hcurrent
    refine ⟨fun r event => isCurrent_resume_of_panicked hcurrent, fun hrun => ⟨?_, ?_, ?_⟩⟩
    · intro hh hpropagates
      have hswitched : s.Switched := hpristine.switched_after hh
      rw [hswitched.propagating hpropagates]
      exact (isCurrent_iff.mp hcurrent).1
    · intro rest hrest
      obtain ⟨huntouched, htaken⟩ := IsTaken.after ⟨hcurrent, hrun⟩ hrest
      exact ⟨huntouched, start_of_running (isCurrent_iff.mp htaken.1).1⟩
    · intro r r'
      exact ⟨_, start_of_not_running (s.running_stop r) r'⟩

/-- A run that finds no pivot block. -/
def pivotless : List Act :=
  [.start (agreeable false), .step (agreeable true) 0 .begun,
    .step (agreeable true) 0 (.selected (.error .noSafeBlock))]

/-- A run that fails gives the node back. -/
theorem released_of_pivotless :
    assemble {} {} false FullSync.defaultIdle none = .ok usual ∧
      (usual.after pivotless).runs[0]? = some (.ended (.error (.pivot .noSafeBlock))) ∧
      (usual.after pivotless).Released ∧
      ∃ t, (usual.after pivotless).start (agreeable false) = .ok t := by
  obtain ⟨hreleased, hstart⟩ := (released_of_ended assemble_usual pivotless).1 0 _ rfl rfl
  exact ⟨assemble_usual, rfl, hreleased, hstart (agreeable false)⟩

/-- A run that breaks down keeps the node, be it while it catches up or while it follows the chain:
it is over, and no other was started, but block propagation or the pruner is on and nothing can be
started. -/
theorem breakdown_takes_node :
    (let h := [.start (agreeable false), .step (agreeable true) 0 .begun,
        .step (agreeable true) 0 .panicked]
      let s := usual.after h
      assemble {} {} false FullSync.defaultIdle none = .ok usual ∧ Truthful usual h ∧
        s.runs.length = 1 ∧ s.runs[0]? = some .panicked ∧ s.running = true ∧
        s.propagating = true ∧ s.start (agreeable true) = .error .alreadyRunning) ∧
      (let h := [.start (agreeable false), .step (agreeable true) 0 .begun,
        .step (agreeable true) 0 .panicked]
      let s := unpivoted.after h
      assemble { mode := .full } {} false FullSync.defaultIdle none = .ok unpivoted ∧
        Truthful unpivoted h ∧ s.runs.length = 1 ∧ s.runs[0]? = some .panicked ∧
        s.running = true ∧ s.pruning = true ∧
        s.start (agreeable true) = .error .alreadyRunning) := by
  refine ⟨⟨assemble_usual, ⟨fun _ => rfl, trivial, trivial, trivial⟩, rfl, rfl, rfl, rfl, rfl⟩,
    ⟨rfl, ⟨fun _ => rfl, trivial, trivial, trivial⟩, rfl, rfl, rfl, rfl, rfl⟩⟩

end Synchronizer

end ExecutionNode.Sync
