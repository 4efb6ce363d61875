import ExecutionNode.Proofs.Sync.Lifecycle

/-!
# What becomes of a run

`Becomes` says once what a step can make of a run, by where the run was: it stays, its catch-up goes
on, breaks down, fails or is complete, or it goes on with full sync.  Everything else that happens
to a synchronizer leaves its runs alone or adds one (`run_act_cases`).

From this three things follow about runs in a history.

* In a pivoted mode every run has something to catch up with (`fresh_not_mem_after`).
* With orderly collaborators no run breaks down or ends as stopped (`Pristine.orderly_after`).
* A run that was overtaken while it caught up never gets further: it goes on catching up, ends well
  or breaks down (`IsOvertaken.after`).
-/

namespace ExecutionNode.Sync

/-- A run is past catching up. -/
def Run.IsPast : Run → Prop
  | .following .. => True
  | .ended _ => True
  | .panicked => True
  | _ => False

/-- A run got no further than catching up, unless it ended well or broke down. -/
def Run.IsOvertaken : Run → Prop
  | .catchingUp .. => True
  | .ended (.ok _) => True
  | .panicked => True
  | _ => False

/-- A run may have just been added. -/
def Run.IsNew : Run → Prop
  | .fresh => True
  | .catchingUp _ _ .fresh => True
  | _ => False

/-- A run neither broke down nor ended as stopped. -/
def Run.Orderly : Run → Prop
  | .ended (.error e) => e ≠ .stopped
  | .panicked => False
  | _ => True

/-- A run that was just added is orderly. -/
theorem Run.IsNew.orderly {x : Run} (h : x.IsNew) : x.Orderly := by
  cases x with
  | fresh => trivial
  | catchingUp _ _ _ => trivial
  | following _ _ => exact h.elim
  | ended _ => exact h.elim
  | panicked => exact h.elim

namespace Synchronizer

variable {s t : Synchronizer} {run : Nat}

/-! ### Steps -/

/-- What a step makes of a run. -/
inductive Becomes (s : Synchronizer) (r : Replies) (run : Nat) (event : Event) :
    Run → Run → Prop where
  /-- It stays where it is. -/
  | stays (x : Run) : Becomes s r run event x x
  /-- It had nothing to catch up with. -/
  | begins {x : Run} (hpast : x.IsPast) (horderly : x.Orderly) : Becomes s r run event .fresh x
  /-- Its catch-up goes on. -/
  | waits {downloader arming : Nat} {stage stage' : CatchUp.Stage} {c : CatchUp}
      (hc : s.catchUps[downloader]? = some c)
      (hturn : (c.resume r s.book arming stage event).turn = .waiting stage') :
      Becomes s r run event (.catchingUp downloader arming stage)
        (.catchingUp downloader arming stage')
  /-- Its catch-up broke down. -/
  | breaks {downloader arming : Nat} {stage : CatchUp.Stage} {c : CatchUp}
      (hc : s.catchUps[downloader]? = some c)
      (hturn : (c.resume r s.book arming stage event).turn = .panicked) :
      Becomes s r run event (.catchingUp downloader arming stage) .panicked
  /-- Its catch-up ended while it was current. -/
  | completes {downloader arming : Nat} {stage : CatchUp.Stage} {c : CatchUp} {x : Run}
      {pivot : SealedHeader} (hc : s.catchUps[downloader]? = some c)
      (hcurrent : s.isCurrent run = true)
      (hturn : (c.resume r s.book arming stage event).turn = .ended (.ok pivot))
      (hpast : x.IsPast) (horderly : x.Orderly) :
      Becomes s r run event (.catchingUp downloader arming stage) x
  /-- Its catch-up failed while it was current. -/
  | fails {downloader arming : Nat} {stage : CatchUp.Stage} {c : CatchUp} {e : RunError}
      (hc : s.catchUps[downloader]? = some c) (hcurrent : s.isCurrent run = true)
      (hturn : (c.resume r s.book arming stage event).turn = .ended (.error e)) :
      Becomes s r run event (.catchingUp downloader arming stage) (.ended (.error e))
  /-- Its catch-up ended, somehow, after it was overtaken. -/
  | goes {downloader arming : Nat} {stage : CatchUp.Stage} {c : CatchUp}
      {result : Except RunError SealedHeader} (hc : s.catchUps[downloader]? = some c)
      (hovertaken : s.isCurrent run = false)
      (hturn : (c.resume r s.book arming stage event).turn = .ended result) :
      Becomes s r run event (.catchingUp downloader arming stage) (.ended (.ok ()))
  /-- It goes on with full sync. -/
  | follows {arming : Nat} {stage : FullSync.Stage} {x : Run} (hpast : x.IsPast)
      (horderly : event.Orderly → x.Orderly) :
      Becomes s r run event (.following arming stage) x

/-- A call makes nothing of a run. -/
theorem runs_callIf (s : Synchronizer) (condition : Bool) (c : Call) :
    (s.callIf condition c).runs = s.runs := by
  rw [callIf_eq]

/-- To have missing nodes fetched on demand makes nothing of a run. -/
theorem runs_enableFallback (s : Synchronizer) (r : Replies) :
    (s.enableFallback r).runs = s.runs := by
  unfold enableFallback
  split <;> rfl

/-- A run that ends has ended, whether it winds down or not. -/
theorem runs_finish (s : Synchronizer) (run : Nat) (result : Except RunError Unit) :
    (s.finish run result).runs = s.runs.set run (.ended result) := by
  unfold finish windDown
  dsimp only
  split
  · rw [runs_callIf, runs_callIf]
    rfl
  · rfl

/-- A run that has nothing left to download ends well. -/
theorem runs_conclude (s : Synchronizer) (r : Replies) (run : Nat) :
    (s.conclude r run).runs = s.runs.set run (.ended (.ok ())) := by
  unfold conclude
  dsimp only
  rw [runs_finish]
  split <;> rfl

/-- A run that follows the chain is past catching up, and as orderly as its step. -/
theorem runs_afterFullSync (s : Synchronizer) (r : Replies) (run arming : Nat)
    (o : FullSync.Outcome) : ∃ x : Run, x.IsPast ∧ (o.turn.Orderly → x.Orderly) ∧
      (s.afterFullSync r run arming o).runs = s.runs.set run x := by
  unfold afterFullSync
  dsimp only
  cases hturn : o.turn with
  | waiting stage => exact ⟨.following arming stage, trivial, fun _ => trivial, rfl⟩
  | ended result =>
    cases result with
    | ok _ => exact ⟨.ended (.ok ()), trivial, fun _ => trivial, runs_conclude _ r run⟩
    | error e => exact ⟨.ended (.error e), trivial, fun he => he, runs_finish _ run _⟩
  | panicked => exact ⟨.panicked, trivial, fun h => h, rfl⟩

/-- A run that goes on with full sync is past catching up, in order. -/
theorem runs_follow (s : Synchronizer) (r : Replies) (run : Nat) :
    ∃ x : Run, x.IsPast ∧ x.Orderly ∧ (s.follow r run).runs = s.runs.set run x := by
  unfold follow
  split
  · dsimp only
    split
    · refine ⟨.ended (.ok ()), trivial, trivial, ?_⟩
      rw [runs_conclude, runs_callIf]
    · next f _ =>
      obtain ⟨x, hpast, horderly, hruns⟩ := runs_afterFullSync
        ((s.callIf s.prunes .startPruner).call .startFullSync) r run f.start.signal.arms
        (f.start.resume r ((s.callIf s.prunes .startPruner).call .startFullSync).book
          f.start.signal.arms .fresh .begun)
      refine ⟨x, hpast, horderly (FullSync.orderly_resume _ .fresh trivial), hruns.trans ?_⟩
      rw [show ((s.callIf s.prunes .startPruner).call .startFullSync).runs =
        (s.callIf s.prunes .startPruner).runs from rfl, runs_callIf]
  · exact ⟨.ended (.ok ()), trivial, trivial, runs_finish s run _⟩

/-- A synchronizer of which the downloaded world state has become the state. -/
def arrived (s : Synchronizer) (r : Replies) (pivot : SealedHeader) : Synchronizer :=
  (((((s.call .deletePivot).call (.anchor pivot)).call .closeSelector).change
    .initialDone).enableFallback r).call (.consultTermination r.overAfterCatchUp)

/-- Where nothing fails, a run hands over by going on with full sync unless the download is over. -/
theorem handOver_of_ok (s : Synchronizer) {r : Replies} (run : Nat) (pivot : SealedHeader)
    (hdelete : r.delete = .ok ()) (hanchor : r.anchor = .ok ()) :
    s.handOver r run pivot =
      if r.overAfterCatchUp then ((s.arrived r pivot).change (.terminal true)).finish run (.ok ())
      else (s.arrived r pivot).follow r run := by
  unfold handOver
  rw [hdelete]
  dsimp only
  rw [hanchor]
  rfl

/-- Where the kept pivot block cannot be forgotten, a run ends with that fault. -/
theorem handOver_of_delete_error (s : Synchronizer) {r : Replies} (run : Nat)
    (pivot : SealedHeader) {f : Fault} (hdelete : r.delete = .error f) :
    s.handOver r run pivot = (s.call .deletePivot).finish run (.error (.fault f)) := by
  unfold handOver
  rw [hdelete]

/-- Where the world state cannot become the state, a run ends with that fault. -/
theorem handOver_of_anchor_error (s : Synchronizer) {r : Replies} (run : Nat)
    (pivot : SealedHeader) {f : Fault} (hdelete : r.delete = .ok ())
    (hanchor : r.anchor = .error f) :
    s.handOver r run pivot =
      ((s.call .deletePivot).call (.anchor pivot)).finish run (.error (.fault f)) := by
  unfold handOver
  rw [hdelete]
  dsimp only
  rw [hanchor]

/-- A run that hands over is past catching up, in order. -/
theorem runs_handOver (s : Synchronizer) (r : Replies) (run : Nat) (pivot : SealedHeader) :
    ∃ x : Run, x.IsPast ∧ x.Orderly ∧ (s.handOver r run pivot).runs = s.runs.set run x := by
  cases hdelete : r.delete with
  | error f =>
    refine ⟨.ended (.error (.fault f)), trivial, RunError.noConfusion, ?_⟩
    rw [s.handOver_of_delete_error run pivot hdelete, runs_finish]
    rfl
  | ok _ =>
    cases hanchor : r.anchor with
    | error f =>
      refine ⟨.ended (.error (.fault f)), trivial, RunError.noConfusion, ?_⟩
      rw [s.handOver_of_anchor_error run pivot hdelete hanchor, runs_finish]
      rfl
    | ok _ =>
      have harrived : (s.arrived r pivot).runs = s.runs := runs_enableFallback _ r
      rw [s.handOver_of_ok run pivot hdelete hanchor]
      split
      · refine ⟨.ended (.ok ()), trivial, trivial, ?_⟩
        rw [runs_finish, ← harrived]
        rfl
      · obtain ⟨x, hpast, horderly, hruns⟩ := (s.arrived r pivot).runs_follow r run
        exact ⟨x, hpast, horderly, by rw [hruns, harrived]⟩

/-- **What a step makes of its run.** -/
theorem becomes_resume (s : Synchronizer) (r : Replies) {run : Nat} (event : Event) {y : Run}
    (hy : s.runs[run]? = some y) :
    ∃ x, Becomes s r run event y x ∧ (s.resume r run event).runs = s.runs.set run x := by
  have hsame : s.runs = s.runs.set run y := by
    obtain ⟨hlt, rfl⟩ := List.getElem?_eq_some_iff.mp hy
    exact (List.set_getElem_self hlt).symm
  unfold resume
  rw [hy]
  cases y with
  | fresh =>
    dsimp only
    split
    · obtain ⟨x, hpast, horderly, hruns⟩ :=
        ((s.change .initialDone).enableFallback r).runs_follow r run
      refine ⟨x, .begins hpast horderly, ?_⟩
      rw [hruns, runs_enableFallback]
      rfl
    · exact ⟨.fresh, .stays _, hsame⟩
  | catchingUp downloader arming stage =>
    dsimp only
    cases hc : s.catchUps[downloader]? with
    | none => exact ⟨.catchingUp downloader arming stage, .stays _, hsame⟩
    | some c =>
      unfold afterCatchUp
      dsimp only
      cases hturn : (c.resume r s.book arming stage event).turn with
      | waiting stage' => exact ⟨_, .waits hc hturn, rfl⟩
      | panicked => exact ⟨_, .breaks hc hturn, rfl⟩
      | ended result =>
        dsimp only
        split
        · next hcurrent =>
          have hcurrent : s.isCurrent run = true := hcurrent
          cases result with
          | ok pivot =>
            obtain ⟨x, hpast, horderly, hruns⟩ := runs_handOver _ r run pivot
            exact ⟨x, .completes hc hcurrent hturn hpast horderly, hruns⟩
          | error e => exact ⟨_, .fails hc hcurrent hturn, runs_finish _ run _⟩
        · next hovertaken =>
          have hovertaken : s.isCurrent run = false := (Bool.not_eq_true _).mp hovertaken
          exact ⟨_, .goes hc hovertaken hturn, runs_finish _ run _⟩
  | following arming stage =>
    dsimp only
    split
    · next f _ =>
      obtain ⟨x, hpast, horderly, hruns⟩ := s.runs_afterFullSync r run arming
        (f.resume r s.book arming stage event)
      exact ⟨x, .follows hpast fun he => horderly (FullSync.orderly_resume arming stage he), hruns⟩
    · exact ⟨.following arming stage, .stays _, hsame⟩
  | ended result => exact ⟨.ended result, .stays _, hsame⟩
  | panicked => exact ⟨.panicked, .stays _, hsame⟩

/-- No step takes a run back to its beginning. -/
theorem Becomes.eq_fresh {r : Replies} {event : Event} {x : Run}
    (h : Becomes s r run event x .fresh) : x = .fresh := by
  cases h with
  | stays => rfl
  | begins hpast => exact hpast.elim
  | completes _ _ _ hpast => exact hpast.elim
  | follows hpast => exact hpast.elim

/-! ### Acts -/

/-- To stop makes nothing of a run until it notices. -/
theorem runs_stop (s : Synchronizer) (r : Replies) : (s.stop r).runs = s.runs := by
  cases hrunning : s.running with
  | false => rw [stop_of_not_running hrunning]
  | true => rw [stop_of_running hrunning, runs_callIf, runs_callIf]

/-- To start adds a run. -/
theorem runs_start (s : Synchronizer) {r : Replies} (ht : s.start r = .ok t) :
    t.runs = s.runs ++ [s.nextRun] := by
  cases hrunning : s.running with
  | false =>
    rw [start_of_not_running hrunning] at ht
    rw [← Except.ok.inj ht, runs_callIf]
  | true => rw [start_of_running hrunning] at ht; cases ht

/-- To start adds one run. -/
theorem length_runs_start (s : Synchronizer) {r : Replies} {t : Synchronizer}
    (ht : s.start r = .ok t) : t.runs.length = s.runs.length + 1 := by
  rw [runs_start s ht, List.length_append, List.length_singleton]

/-- To start makes the new run the current one. -/
theorem isCurrent_start (s : Synchronizer) {r : Replies} {t : Synchronizer}
    (ht : s.start r = .ok t) : t.isCurrent s.runs.length = true := by
  have hlength := s.length_runs_start ht
  cases hrunning : s.running with
  | false =>
    rw [start_of_not_running hrunning] at ht
    rw [isCurrent, hlength, ← Except.ok.inj ht, callIf_eq, beq_self_eq_true]
    rfl
  | true => rw [start_of_running hrunning] at ht; cases ht

/-- To discard what was fetched makes nothing of a run. -/
theorem runs_discarded (s : Synchronizer) (r : Replies) : (s.discarded r).runs = s.runs := by
  rw [← s.runs_stop r, ← runs_callIf (s.stop r) (s.stop r).catchUp?.isSome .deletePivot]
  rfl

/-- The next run may have just been added. -/
theorem isNew_nextRun (s : Synchronizer) : s.nextRun.IsNew := by
  unfold nextRun
  split <;> trivial

/-- To start over adds a run. -/
theorem runs_resync (s : Synchronizer) (r r' : Replies) :
    (s.resync r r').2.runs = s.runs ++ [(s.discarded r).nextRun] := by
  rw [runs_start (s.discarded r) (s.start_discarded r r'), runs_discarded]

/-- To start over adds one run. -/
theorem length_runs_resync (s : Synchronizer) (r r' : Replies) :
    (s.resync r r').2.runs.length = s.runs.length + 1 := by
  rw [runs_resync, List.length_append, List.length_singleton]

/-- To start over makes the new run the current one. -/
theorem isCurrent_resync (s : Synchronizer) (r r' : Replies) :
    (s.resync r r').2.isCurrent s.runs.length = true := by
  rw [← s.runs_discarded r]
  exact (s.discarded r).isCurrent_start (s.start_discarded r r')

/-- A run that there is not makes no step. -/
theorem resume_of_none (h : s.runs[run]? = none) (r : Replies) (event : Event) :
    s.resume r run event = s := by
  unfold resume
  rw [h]

/-- With a downloader, a run has something to catch up with. -/
theorem nextRun_ne_fresh (h : s.catchUps ≠ []) : s.nextRun ≠ .fresh := by
  unfold nextRun catchUp?
  rw [List.getLast?_eq_some_getLast h]
  exact Run.noConfusion

/-- To stop does away with no downloader. -/
theorem length_catchUps_stop (s : Synchronizer) (r : Replies) :
    (s.stop r).catchUps.length = s.catchUps.length := by
  cases hrunning : s.running with
  | false => rw [stop_of_not_running hrunning]
  | true =>
    rw [stop_of_running hrunning, callIf_eq, callIf_eq]
    exact List.length_modify ..

/-- To start does away with no downloader. -/
theorem length_catchUps_start {r : Replies} (ht : s.start r = .ok t) :
    t.catchUps.length = s.catchUps.length := by
  cases hrunning : s.running with
  | false =>
    rw [start_of_not_running hrunning] at ht
    rw [← Except.ok.inj ht, callIf_eq]
    exact List.length_modify ..
  | true => rw [start_of_running hrunning] at ht; cases ht

/-- To discard what was fetched does away with no downloader. -/
theorem length_catchUps_discarded (s : Synchronizer) (r : Replies) :
    s.catchUps.length ≤ (s.discarded r).catchUps.length := by
  rw [← s.length_catchUps_stop r]
  exact (s.untouched_discarded r).catchUps

/-- Whatever happens does away with no downloader. -/
theorem length_catchUps_act (s : Synchronizer) (a : Act) :
    s.catchUps.length ≤ (s.act a).catchUps.length := by
  cases a with
  | start r =>
    dsimp only [act]
    split
    · next t hstart => exact Nat.le_of_eq (length_catchUps_start hstart).symm
    · exact Nat.le_refl _
  | stop r => exact Nat.le_of_eq (s.length_catchUps_stop r).symm
  | resync r r' =>
    dsimp only [act]
    rw [length_catchUps_start (s.start_discarded r r')]
    exact s.length_catchUps_discarded r
  | step r other event => exact (s.touches_resume r other event).le.2.2
  | announce state => exact (s.untouched_announce state).catchUps
  | operate op => exact Nat.le_refl _

/-- Whatever is not a step only adds runs, which have something to catch up with if there is a
downloader. -/
theorem runs_act (s : Synchronizer) {a : Act} (ha : ∀ r run event, a ≠ .step r run event) :
    ∃ new, (∀ x ∈ new, Run.IsNew x) ∧ (s.catchUps ≠ [] → .fresh ∉ new) ∧
      (s.act a).runs = s.runs ++ new := by
  have hkept : ∀ {t : Synchronizer}, t.runs = s.runs → ∃ new, (∀ x ∈ new, Run.IsNew x) ∧
      (s.catchUps ≠ [] → .fresh ∉ new) ∧ t.runs = s.runs ++ new :=
    fun hruns => ⟨[], by simp, by simp, by rw [hruns, List.append_nil]⟩
  have hadded : ∀ {t : Synchronizer} (u : Synchronizer), (s.catchUps ≠ [] → u.catchUps ≠ []) →
      t.runs = s.runs ++ [u.nextRun] → ∃ new, (∀ x ∈ new, Run.IsNew x) ∧
      (s.catchUps ≠ [] → .fresh ∉ new) ∧ t.runs = s.runs ++ new := by
    intro t u hcatchUps hruns
    refine ⟨[u.nextRun], fun x hx => ?_, fun hne hfresh => ?_, hruns⟩
    · rw [List.mem_singleton.mp hx]
      exact u.isNew_nextRun
    · exact nextRun_ne_fresh (hcatchUps hne) (List.mem_singleton.mp hfresh).symm
  cases a with
  | start r =>
    dsimp only [act]
    split
    · next t hstart => exact hadded s id (runs_start s hstart)
    · exact hkept rfl
  | stop r => exact hkept (s.runs_stop r)
  | resync r r' =>
    refine hadded (s.discarded r) (fun hne => ?_) (s.runs_resync r r')
    have hpos := List.length_pos_iff.mpr hne
    have hle := s.length_catchUps_discarded r
    exact List.length_pos_iff.mp (by omega)
  | step r run event => exact absurd rfl (ha r run event)
  | announce state =>
    apply hkept
    dsimp only [act, announce]
    rw [runs_callIf, runs_callIf]
  | operate op => exact hkept rfl

/-- **Whatever happens, a run stays there**: it is as it was, or it made that step. -/
theorem exists_run_act {x : Run} (hx : s.runs[run]? = some x) (a : Act) :
    ∃ x', (s.act a).runs[run]? = some x' ∧
      (x' = x ∨ ∃ r event, a = .step r run event ∧ Becomes s r run event x x') := by
  by_cases ha : ∃ r other event, a = .step r other event
  · obtain ⟨r, other, event, rfl⟩ := ha
    dsimp only [act]
    by_cases hother : other = run
    · subst hother
      obtain ⟨x', hbecomes, hruns⟩ := s.becomes_resume r event hx
      refine ⟨x', ?_, .inr ⟨r, event, rfl, hbecomes⟩⟩
      rw [hruns, List.getElem?_set_self (List.getElem?_eq_some_iff.mp hx).1]
    · refine ⟨x, ?_, .inl rfl⟩
      cases hmissing : s.runs[other]? with
      | none => rw [resume_of_none hmissing, hx]
      | some y =>
        obtain ⟨y', -, hruns⟩ := s.becomes_resume r event hmissing
        rw [hruns, List.getElem?_set_ne hother, hx]
  · obtain ⟨new, -, -, hruns⟩ := s.runs_act fun r other event h => ha ⟨r, other, event, h⟩
    refine ⟨x, ?_, .inl rfl⟩
    rw [hruns, List.getElem?_append_left (List.getElem?_eq_some_iff.mp hx).1, hx]

/-- **Where the runs come from**: a run was there before, or it was just added. -/
theorem run_act_cases (s : Synchronizer) (a : Act) {x' : Run}
    (hx' : (s.act a).runs[run]? = some x') :
    (∃ x, s.runs[run]? = some x ∧
      (x' = x ∨ ∃ r event, a = .step r run event ∧ Becomes s r run event x x')) ∨
    x'.IsNew := by
  cases hx : s.runs[run]? with
  | some x =>
    obtain ⟨x'', hx'', hcases⟩ := exists_run_act hx a
    obtain rfl := Option.some.inj (hx'.symm.trans hx'')
    exact .inl ⟨x, rfl, hcases⟩
  | none =>
    right
    by_cases ha : ∃ r other event, a = .step r other event
    · obtain ⟨r, other, event, rfl⟩ := ha
      have hlength := (s.touches_resume r other event).le.1
      have hlt : run < (s.resume r other event).runs.length := (List.getElem?_eq_some_iff.mp hx').1
      rw [List.getElem?_eq_none_iff] at hx
      omega
    · obtain ⟨new, hnew, -, hruns⟩ := s.runs_act fun r other event h => ha ⟨r, other, event, h⟩
      rw [hruns, List.getElem?_append_right (List.getElem?_eq_none_iff.mp hx)] at hx'
      exact hnew x' (List.mem_of_getElem? hx')

/-- There are no fewer runs, whatever happens. -/
theorem length_runs_act (s : Synchronizer) (a : Act) :
    s.runs.length ≤ (s.act a).runs.length := by
  by_cases ha : ∃ r other event, a = .step r other event
  · obtain ⟨r, other, event, rfl⟩ := ha
    exact Nat.le_of_eq (s.touches_resume r other event).le.1.symm
  · obtain ⟨new, -, -, hruns⟩ := s.runs_act fun r other event h => ha ⟨r, other, event, h⟩
    rw [hruns, List.length_append]
    exact Nat.le_add_right _ _

/-- Nothing adds more than one run. -/
theorem length_runs_act_le (s : Synchronizer) (a : Act) :
    (s.act a).runs.length ≤ s.runs.length + 1 := by
  have hsame : ∀ {t : Synchronizer}, t.runs = s.runs → t.runs.length ≤ s.runs.length + 1 :=
    fun hruns => by rw [hruns]; exact Nat.le_succ _
  cases a with
  | start r =>
    dsimp only [act]
    split
    · next t hstart => exact Nat.le_of_eq (s.length_runs_start hstart)
    · exact hsame rfl
  | stop r => exact hsame (s.runs_stop r)
  | resync r r' => exact Nat.le_of_eq (s.length_runs_resync r r')
  | step r other event =>
    have hlength : (s.act (.step r other event)).runs.length = s.runs.length :=
      (s.touches_resume r other event).le.1
    omega
  | announce state => exact hsame ((runs_callIf _ _ _).trans (runs_callIf _ _ _))
  | operate op => exact hsame rfl

/-- There are no fewer runs in the end. -/
theorem length_runs_after (s : Synchronizer) (h : List Act) :
    s.runs.length ≤ (s.after h).runs.length :=
  after_induction (fun t => s.runs.length ≤ t.runs.length) (fun _ => True) (Nat.le_refl _)
    (fun t a ht _ => Nat.le_trans ht (t.length_runs_act a)) fun _ _ => trivial

/-- **In a pivoted mode every run has something to catch up with.** -/
theorem fresh_not_mem_after (hcatchUps : s.catchUps ≠ []) (hruns : s.runs = []) (h : List Act) :
    .fresh ∉ (s.after h).runs := by
  have hboth : (s.after h).catchUps ≠ [] ∧ .fresh ∉ (s.after h).runs := by
    refine after_induction (fun t => t.catchUps ≠ [] ∧ .fresh ∉ t.runs) (fun _ => True)
      ⟨hcatchUps, by simp [hruns]⟩ (fun t a ht _ => ⟨?_, fun hfresh => ?_⟩) fun _ _ => trivial
    · have hpos := List.length_pos_iff.mpr ht.1
      have hle := t.length_catchUps_act a
      exact List.length_pos_iff.mp (by omega)
    · by_cases ha : ∃ r other event, a = .step r other event
      · obtain ⟨r, other, event, rfl⟩ := ha
        dsimp only [act] at hfresh
        cases hother : t.runs[other]? with
        | none =>
          rw [resume_of_none hother] at hfresh
          exact ht.2 hfresh
        | some y =>
          obtain ⟨x, hbecomes, hruns⟩ := t.becomes_resume r event hother
          rw [hruns] at hfresh
          rcases List.mem_or_eq_of_mem_set hfresh with hold | rfl
          · exact ht.2 hold
          · rw [hbecomes.eq_fresh] at hother
            exact ht.2 (List.mem_of_getElem? hother)
      · obtain ⟨new, -, hnew, hruns⟩ := t.runs_act fun r other event h => ha ⟨r, other, event, h⟩
        rw [hruns, List.mem_append] at hfresh
        exact hfresh.elim ht.2 (hnew ht.1)
  exact hboth.2

/-! ### Orderly runs -/

/-- For the current run the stop signal of its downloader did not go off. -/
theorem hasStopped_of_current (h : s.wiring.Sound) (hcurrent : s.isCurrent run = true)
    {downloader arming : Nat} {stage : CatchUp.Stage} {c : CatchUp}
    (hrun : s.runs[run]? = some (.catchingUp downloader arming stage))
    (hc : s.catchUps[downloader]? = some c) : c.signal.hasStopped arming = false := by
  obtain ⟨honly, -⟩ := h.current (listens_of_catchingUp hrun) (isCurrent_iff.mp hcurrent)
  rw [Option.some.inj ((signal?_of_catchUps hc).symm.trans honly)]
  exact StopSignal.hasStopped_only arming

/-- For an overtaken run the stop signal of its downloader went off. -/
theorem hasStopped_of_overtaken (h : s.wiring.Sound) (hovertaken : s.isCurrent run = false)
    {downloader arming : Nat} {stage : CatchUp.Stage}
    (hrun : s.runs[run]? = some (.catchingUp downloader arming stage)) :
    ∃ c, s.catchUps[downloader]? = some c ∧ c.signal.hasStopped arming = true := by
  have hlistens := listens_of_catchingUp hrun
  obtain ⟨σ, hσ, -⟩ := h.heard hlistens
  have hstale : ¬ s.wiring.IsCurrent run := fun hcurrent => by
    rw [isCurrent_iff.mpr hcurrent] at hovertaken
    cases hovertaken
  have hstopped := h.stale hlistens hstale hσ
  simp only [Wiring.signal?, wiring, List.getElem?_map, Option.map_eq_some_iff] at hσ
  obtain ⟨c, hc, rfl⟩ := hσ
  exact ⟨c, hc, hstopped⟩

/-- An orderly step keeps its run orderly. -/
theorem Becomes.orderly (hsound : s.wiring.Sound) {r : Replies} {event : Event} {x x' : Run}
    (hx : s.runs[run]? = some x) (h : Becomes s r run event x x') (hold : x.Orderly)
    (hr : r.Orderly) (he : event.Orderly) : x'.Orderly := by
  cases h with
  | stays => exact hold
  | begins _ horderly => exact horderly
  | waits => trivial
  | breaks _ hturn => exact absurd hturn (CatchUp.turn_resume_ne_panicked hr _ _ he)
  | completes _ _ _ _ horderly => exact horderly
  | @fails _ arming stage c e hc hcurrent hturn =>
    have hturn' : (c.resume r s.book arming stage event).turn.Orderly :=
      CatchUp.orderly_resume hr stage he (hasStopped_of_current hsound hcurrent hx hc)
    rw [hturn] at hturn'
    exact hturn'
  | goes => trivial
  | follows _ horderly => exact horderly he

/-- **With orderly collaborators no run breaks down or ends as stopped.** -/
theorem Pristine.orderly_after (hs : s.Pristine) {h : List Act} (hh : ∀ x ∈ h, x.Orderly)
    {x : Run} (hx : x ∈ (s.after h).runs) : x.Orderly := by
  have hboth : (s.after h).wiring.Sound ∧ ∀ x ∈ (s.after h).runs, Run.Orderly x := by
    refine after_induction (fun t => t.wiring.Sound ∧ ∀ x ∈ t.runs, Run.Orderly x) Act.Orderly
      ⟨hs.sound, fun x hx => ?_⟩ (fun t a ht ha => ⟨sound_act ht.1 a, fun x' hx' => ?_⟩) hh
    · rw [hs.runs] at hx
      cases hx
    · obtain ⟨run, hx'⟩ := List.mem_iff_getElem?.mp hx'
      rcases run_act_cases t a hx' with ⟨x, hx, rfl | ⟨r, event, rfl, hbecomes⟩⟩ | hnew
      · exact ht.2 x' (List.mem_of_getElem? hx)
      · exact hbecomes.orderly ht.1 hx (ht.2 x (List.mem_of_getElem? hx)) ha.1 ha.2
      · exact hnew.orderly
  exact hboth.2 x hx

/-! ### Overtaken runs -/

/-- The current run is the latest. -/
theorem eq_length_of_isCurrent (h : s.isCurrent run = true) : run + 1 = s.runs.length := by
  simpa [wiring] using (isCurrent_iff.mp h).2

/-- A run is not current if none is active or another is the latest. -/
theorem isCurrent_eq_false_iff :
    s.isCurrent run = false ↔ (s.running = true → run + 1 ≠ s.runs.length) := by
  unfold isCurrent
  cases s.running <;> simp

/-- **A run that is not current never is again.** -/
theorem isCurrent_act_eq_false (h : s.isCurrent run = false) (hrun : run < s.runs.length)
    (a : Act) : (s.act a).isCurrent run = false := by
  have hadded : ∀ {t : Synchronizer} {x : Run}, t.runs = s.runs ++ [x] →
      t.isCurrent run = false := by
    intro t x hruns
    rw [isCurrent_eq_false_iff, hruns, List.length_append, List.length_singleton]
    omega
  rw [isCurrent_eq_false_iff] at h
  cases a with
  | start r =>
    dsimp only [act]
    split
    · next t hstart => exact hadded (runs_start s hstart)
    · exact isCurrent_eq_false_iff.mpr h
  | stop r =>
    apply isCurrent_eq_false_iff.mpr
    intro hrunning
    rw [show (s.act (.stop r)).running = false from s.running_stop r] at hrunning
    cases hrunning
  | resync r r' => exact hadded (s.runs_resync r r')
  | step r other event =>
    obtain ⟨hlength, hrunning, -⟩ := (s.touches_resume r other event).le
    apply isCurrent_eq_false_iff.mpr
    intro hactive
    rw [show (s.act (.step r other event)).runs.length = s.runs.length from hlength]
    exact h (hrunning hactive)
  | announce state =>
    have huntouched : s.Untouched (s.act (.announce state)) := s.untouched_announce state
    rw [isCurrent_eq_false_iff, huntouched.running, huntouched.runs]
    exact h
  | operate op => exact isCurrent_eq_false_iff.mpr h

/-- **A run that is not current never is again, in any history.** -/
theorem isCurrent_after_eq_false (h : s.isCurrent run = false) (hrun : run < s.runs.length)
    (rest : List Act) : (s.after rest).isCurrent run = false := by
  have hboth : (s.after rest).isCurrent run = false ∧ run < (s.after rest).runs.length :=
    after_induction (fun t => t.isCurrent run = false ∧ run < t.runs.length) (fun _ => True)
      ⟨h, hrun⟩ (fun t a ht _ => ⟨isCurrent_act_eq_false ht.1 ht.2 a,
        Nat.lt_of_lt_of_le ht.2 (t.length_runs_act a)⟩) fun _ _ => trivial
  exact hboth.1

/-- A run that is current was so before, unless it was just added. -/
theorem isCurrent_of_act {a : Act} (h : (s.act a).isCurrent run = true)
    (hlt : run < s.runs.length) : s.isCurrent run = true := by
  cases hs : s.isCurrent run with
  | true => rfl
  | false =>
    rw [isCurrent_act_eq_false hs hlt] at h
    cases h

/-- A run was overtaken while it caught up: it is not current, and it got no further than to end
well or to break down. -/
def IsOvertaken (s : Synchronizer) (run : Nat) : Prop :=
  s.isCurrent run = false ∧ ∃ x, s.runs[run]? = some x ∧ x.IsOvertaken

/-- An overtaken run gets no further, whatever happens. -/
theorem IsOvertaken.act (h : s.IsOvertaken run) (a : Act) : (s.act a).IsOvertaken run := by
  obtain ⟨hcurrent, x, hx, hover⟩ := h
  refine ⟨isCurrent_act_eq_false hcurrent (List.getElem?_eq_some_iff.mp hx).1 a, ?_⟩
  obtain ⟨x', hx', rfl | ⟨r, event, -, hbecomes⟩⟩ := exists_run_act hx a
  · exact ⟨x', hx', hover⟩
  · refine ⟨x', hx', ?_⟩
    cases hbecomes with
    | stays => exact hover
    | begins => exact hover.elim
    | waits => trivial
    | breaks => trivial
    | completes _ hagain => rw [hcurrent] at hagain; cases hagain
    | fails _ hagain => rw [hcurrent] at hagain; cases hagain
    | goes => trivial
    | follows => exact hover.elim

/-- **An overtaken run gets no further in any history.** -/
theorem IsOvertaken.after (h : s.IsOvertaken run) (rest : List Act) :
    (s.after rest).IsOvertaken run :=
  after_induction (fun t => t.IsOvertaken run) (fun _ => True) h (fun _ a ht _ => ht.act a)
    fun _ _ => trivial

end Synchronizer

end ExecutionNode.Sync
