import ExecutionNode.Proofs.Sync.Wiring

/-!
# The wiring of a synchronizer

Every operation of a synchronizer is one of the things that may happen to its wiring, or several in
a row.  In the middle of a step a run has left one source and not yet joined the next; the wiring
then has the run silenced, whatever is noted of it.  So the lemmas about the parts of a step assume
a sound wiring with the run silenced, and end with a sound wiring.

The result is `Pristine.sound_after`: the wiring is sound after every history.
-/

namespace ExecutionNode.Sync

namespace Synchronizer

variable {s t : Synchronizer} {r : Replies} {run : Nat}

/-- Who listens to which stop signal of a synchronizer. -/
def wiring (s : Synchronizer) : Wiring where
  running := s.running
  listens := s.runs.map Run.listens?
  catchUps := s.catchUps.map (·.signal)
  fullSync := s.fullSync.map (·.signal)

/-- A run is current for the synchronizer when it is for its wiring. -/
theorem isCurrent_iff : s.isCurrent run = true ↔ s.wiring.IsCurrent run := by
  simp [isCurrent, Wiring.IsCurrent, wiring]

/-- A run that catches up listens to its downloader. -/
theorem listens_of_catchingUp {downloader arming : Nat} {stage : CatchUp.Stage}
    (hrun : s.runs[run]? = some (.catchingUp downloader arming stage)) :
    s.wiring.Listens run (.catchUp downloader) arming := by
  simp [Wiring.Listens, wiring, hrun, Run.listens?]

/-- A downloader for catching up has its signal in the wiring. -/
theorem signal?_of_catchUps {downloader : Nat} {c : CatchUp}
    (hc : s.catchUps[downloader]? = some c) :
    s.wiring.signal? (.catchUp downloader) = some c.signal := by
  simp [Wiring.signal?, wiring, hc]

/-- Full sync has its signal in the wiring. -/
theorem signal?_of_fullSync {f : FullSync} (hf : s.fullSync = some f) :
    s.wiring.signal? .fullSync = some f.signal := by
  simp [Wiring.signal?, wiring, hf]

/-- A call that may be left out changes the logbook at most. -/
theorem callIf_eq (s : Synchronizer) (condition : Bool) (c : Call) :
    s.callIf condition c = { s with book := if condition then s.book.call c else s.book } := by
  unfold callIf
  split <;> rfl

/-! ### Operations that do not touch the wiring -/

@[simp] theorem wiring_call (s : Synchronizer) (c : Call) : (s.call c).wiring = s.wiring := rfl

@[simp] theorem wiring_callIf (s : Synchronizer) (condition : Bool) (c : Call) :
    (s.callIf condition c).wiring = s.wiring := by
  rw [callIf_eq]
  rfl

@[simp] theorem wiring_change (s : Synchronizer) (c : Progress.Change) :
    (s.change c).wiring = s.wiring := rfl

@[simp] theorem wiring_enableFallback (s : Synchronizer) (r : Replies) :
    (s.enableFallback r).wiring = s.wiring := by
  unfold enableFallback
  split <;> rfl

/-! ### Operations that do -/

/-- What is noted of a run says what it listens to. -/
theorem wiring_setRun (s : Synchronizer) (run : Nat) (stage : Run) :
    (s.setRun run stage).wiring =
      { s.wiring with listens := s.wiring.listens.set run stage.listens? } := by
  simp [setRun, wiring]

/-- To note of a run what is noted already changes nothing. -/
theorem setRun_self {stage : Run} (h : s.runs[run]? = some stage) : s.setRun run stage = s := by
  obtain ⟨hlt, rfl⟩ := List.getElem?_eq_some_iff.mp h
  unfold setRun
  rw [List.set_getElem_self]

/-- A run that does not wait is silent. -/
theorem wiring_setRun_of_listens?_eq_none {stage : Run} (h : stage.listens? = none) :
    (s.setRun run stage).wiring = s.wiring.silence run := by
  rw [wiring_setRun, h]
  rfl

/-- What happens to the newest downloader happens to its signal. -/
theorem map_signal_mapCatchUp (s : Synchronizer) (f : CatchUp → CatchUp)
    (g : StopSignal → StopSignal) (h : ∀ c, (f c).signal = g c.signal) :
    (s.mapCatchUp f).catchUps.map (·.signal) =
      (s.wiring.mapSignal s.wiring.newest g).catchUps := by
  apply List.ext_getElem?
  intro i
  simp only [mapCatchUp, Wiring.mapSignal, Wiring.newest, wiring, List.getElem?_map,
    List.getElem?_modify, List.length_map]
  cases s.catchUps[i]? with
  | none => rfl
  | some c =>
    simp only [Option.map_some, Option.map_eq_map]
    split <;> simp [h]

/-- What is left of an active run when it is stopped. -/
theorem stop_of_running (h : s.running = true) (r : Replies) :
    s.stop r =
      ({ s with
        running := false
        catchUps := (s.mapCatchUp CatchUp.stop).catchUps
        fullSync := s.fullSync.map FullSync.stop }.callIf s.prunes .stopPruner).callIf
          (s.propagates && r.propagating) .stopPropagation := by
  unfold stop
  rw [if_pos h]
  simp only [callIf_eq]
  rfl

/-- Nothing is stopped while no run is active. -/
theorem stop_of_not_running (h : s.running = false) (r : Replies) : s.stop r = s := by
  unfold stop
  rw [if_neg (by rw [h]; exact Bool.false_ne_true)]

/-- To stop an active run is to stop the wiring. -/
theorem wiring_stop (h : s.running = true) (r : Replies) : (s.stop r).wiring = s.wiring.stop := by
  have hcatchUps := map_signal_mapCatchUp s CatchUp.stop .trigger fun _ => rfl
  have hfullSync : (s.fullSync.map FullSync.stop).map (·.signal) =
      (s.fullSync.map (·.signal)).map StopSignal.trigger := by
    rw [Option.map_map, Option.map_map]
    rfl
  rw [stop_of_running h, wiring_callIf, wiring_callIf]
  unfold wiring Wiring.stop
  dsimp only
  rw [hcatchUps, hfullSync]
  rfl

/-- How far the next run is at first. -/
def nextRun (s : Synchronizer) : Run :=
  match s.catchUp? with
  | some c => .catchingUp (s.catchUps.length - 1) (c.signal.arms + 1) .fresh
  | none => .fresh

/-- What is started while a run is active is not started. -/
theorem start_of_running (h : s.running = true) (r : Replies) :
    s.start r = .error .alreadyRunning := by
  unfold start
  rw [if_pos h]

/-- What comes of a start while no run is active. -/
theorem start_of_not_running (h : s.running = false) (r : Replies) :
    s.start r = .ok
      ({ s with
        running := true
        catchUps := (s.mapCatchUp CatchUp.start).catchUps
        runs := s.runs ++ [s.nextRun] }.callIf (s.propagates && !r.propagating)
          .startPropagation) := by
  unfold start
  rw [if_neg (by rw [h]; exact Bool.false_ne_true)]
  simp only [callIf_eq]
  rfl

/-- To start a synchronizer is to begin in its wiring. -/
theorem wiring_start (h : s.running = false) {r : Replies} (ht : s.start r = .ok t) :
    t.wiring = s.wiring.begin := by
  rw [start_of_not_running h] at ht
  obtain rfl := Except.ok.inj ht
  have hcatchUps := map_signal_mapCatchUp s CatchUp.start .arm fun _ => rfl
  have hnext : s.nextRun.listens? =
      s.wiring.catchUps.getLast?.map fun σ => (s.wiring.newest, σ.arm.arms) := by
    simp only [nextRun, catchUp?, wiring, List.getLast?_map, Wiring.newest, List.length_map]
    cases s.catchUps.getLast? <;> rfl
  rw [wiring_callIf]
  unfold Wiring.begin
  rw [← hnext]
  unfold wiring
  dsimp only
  rw [hcatchUps, List.map_append]
  rfl

/-! ### Parts of a step -/

/-- Only the latest run winds down. -/
theorem windDown_of_ne (h : run + 1 ≠ s.runs.length) : s.windDown run = s := by
  unfold windDown
  rw [if_neg h]

/-- The latest run winds down. -/
theorem windDown_of_eq (h : run + 1 = s.runs.length) :
    s.windDown run = { (s.callIf s.propagates .stopPropagation).callIf s.prunes .stopPruner with
      running := false } := by
  unfold windDown
  rw [if_pos h]

/-- A run may end once it listens to nothing. -/
theorem sound_finish (h : (s.wiring.silence run).Sound) (result : Except RunError Unit) :
    (s.finish run result).wiring.Sound := by
  have hwiring : (s.setRun run (.ended result)).wiring = s.wiring.silence run :=
    wiring_setRun_of_listens?_eq_none rfl
  unfold finish
  by_cases hlast : run + 1 = (s.setRun run (.ended result)).runs.length
  · rw [windDown_of_eq hlast]
    have hhalt : (s.wiring.silence run).halt.Sound := by
      refine h.halt ?_ (s.wiring.silent_silence run)
      rw [← hwiring, hlast]
      exact (List.length_map _).symm
    rw [← hwiring] at hhalt
    simp only [callIf_eq]
    exact hhalt
  · rw [windDown_of_ne hlast, hwiring]
    exact h

/-- A run may be concluded once it listens to nothing. -/
theorem sound_conclude (h : (s.wiring.silence run).Sound) (r : Replies) :
    (s.conclude r run).wiring.Sound := by
  unfold conclude
  apply sound_finish
  split <;> exact h

/-- A step of full sync may be noted if its run was to listen to it. -/
theorem sound_afterFullSync {f : FullSync} {arming : Nat} {stage : FullSync.Stage}
    (h : ({ s with fullSync := some f }.setRun run (.following arming stage)).wiring.Sound)
    (hrun : run < s.runs.length) (r : Replies) (b : Logbook) (event : Event) :
    (s.afterFullSync r run arming (f.resume r b arming stage event)).wiring.Sound := by
  have hsignal := f.signal_resume r b arming stage event
  have hlistens : ({ s with fullSync := some f }.setRun run
      (.following arming stage)).wiring.Listens run .fullSync arming := by
    rw [wiring_setRun]
    exact List.getElem?_set_self (by simpa [wiring] using hrun)
  generalize f.resume r b arming stage event = o at hsignal
  -- whether it waits or not, the run listens as its turn says
  have hleave : (∀ stage', o.turn ≠ .waiting stage') →
      ({ s with fullSync := some o.fullSync, book := o.book }.wiring.silence run).Sound := by
    intro hturn
    have hdrop : o.fullSync.signal = f.signal.drop arming := by
      rw [hsignal]
      split
      · next stage' heq => exact absurd heq (hturn stage')
      · rfl
    have hsound := h.leave hlistens
    rw [wiring_setRun] at hsound
    simpa [Wiring.leave, Wiring.mapSignal, Wiring.silence, wiring, hdrop] using hsound
  unfold afterFullSync
  dsimp only
  cases hturn : o.turn with
  | waiting stage' =>
    rw [hturn] at hsignal
    rw [wiring_setRun] at h ⊢
    simpa [wiring, hsignal, Run.listens?] using h
  | ended result =>
    have hsilent := hleave fun stage' heq => by rw [hturn] at heq; cases heq
    cases result with
    | ok _ => exact sound_conclude hsilent r
    | error e => exact sound_finish hsilent (.error e)
  | panicked =>
    have hsilent := hleave fun stage' heq => by rw [hturn] at heq; cases heq
    dsimp only
    rw [wiring_setRun_of_listens?_eq_none rfl]
    exact hsilent

/-- A run may go on with full sync once it listens to nothing. -/
theorem sound_follow (h : (s.wiring.silence run).Sound) (r : Replies) :
    (s.follow r run).wiring.Sound := by
  unfold follow
  split
  · next hcurrent =>
    rw [isCurrent_iff] at hcurrent
    have hwiring := s.wiring_callIf s.prunes .startPruner
    dsimp only
    generalize s.callIf s.prunes .startPruner = t at hwiring ⊢
    rw [← hwiring] at h hcurrent
    cases hfull : t.fullSync with
    | none => exact sound_conclude h r
    | some f =>
      have hrun : run < t.runs.length := by
        have hlast := hcurrent.2
        simp only [wiring, List.length_map] at hlast
        omega
      have hjoin := h.join (Wiring.isCurrent_silence.mpr hcurrent) (t.wiring.silent_silence run)
        (show t.fullSync.map (·.signal) = some f.signal by rw [hfull]; rfl)
      refine sound_afterFullSync ?_ (by exact hrun) r _ .begun
      rw [wiring_setRun]
      simpa [Wiring.join, Wiring.silence, wiring, call, Run.listens?, FullSync.start] using hjoin
  · exact sound_finish h (.ok ())

/-- A run may hand over once it listens to nothing. -/
theorem sound_handOver (h : (s.wiring.silence run).Sound) (r : Replies) (pivot : SealedHeader) :
    (s.handOver r run pivot).wiring.Sound := by
  unfold handOver
  cases r.delete with
  | error f =>
    apply sound_finish
    exact h
  | ok _ =>
    dsimp only
    cases r.anchor with
    | error f =>
      apply sound_finish
      exact h
    | ok _ =>
      dsimp only
      split
      · apply sound_finish
        simpa using h
      · apply sound_follow
        simpa using h

/-- What happens to one downloader happens to its signal. -/
theorem map_signal_set {catchUps : List CatchUp} {downloader : Nat} {c c' : CatchUp}
    (g : StopSignal → StopSignal) (hc : catchUps[downloader]? = some c)
    (h : c'.signal = g c.signal) :
    (catchUps.set downloader c').map (·.signal) =
      (catchUps.map (·.signal)).modify downloader g := by
  have hlt : downloader < catchUps.length := (List.getElem?_eq_some_iff.mp hc).1
  apply List.ext_getElem?
  intro i
  rw [List.getElem?_map, List.getElem?_set, List.getElem?_modify, List.getElem?_map]
  by_cases hi : downloader = i
  · subst hi
    rw [if_pos rfl, if_pos hlt, hc]
    simp [h]
  · simp [hi]

/-- A step of a catch-up may be noted. -/
theorem sound_afterCatchUp (h : s.wiring.Sound) {downloader arming : Nat} {stage : CatchUp.Stage}
    {c : CatchUp} (hrun : s.runs[run]? = some (.catchingUp downloader arming stage))
    (hc : s.catchUps[downloader]? = some c) (r : Replies) (b : Logbook) (event : Event) :
    (s.afterCatchUp r run downloader arming (c.resume r b arming stage event)).wiring.Sound := by
  have hsignal := c.signal_resume r b arming stage event
  have hlistens := listens_of_catchingUp hrun
  generalize c.resume r b arming stage event = o at hsignal
  -- whether it waits or not, the run listens as its turn says
  have hleave : (∀ stage', o.turn ≠ .waiting stage') →
      ({ s with catchUps := s.catchUps.set downloader o.catchUp, book := o.book }.wiring.silence
        run).Sound := by
    intro hturn
    have hdrop : o.catchUp.signal = c.signal.drop arming := by
      rw [hsignal]
      split
      · next stage' heq => exact absurd heq (hturn stage')
      · rfl
    have hset := map_signal_set (·.drop arming) hc hdrop
    have hsound := h.leave hlistens
    simpa [Wiring.leave, Wiring.mapSignal, Wiring.silence, wiring, hset] using hsound
  unfold afterCatchUp
  dsimp only
  cases hturn : o.turn with
  | waiting stage' =>
    rw [hturn] at hsignal
    have hset := map_signal_set id hc hsignal
    have hsame : (s.runs.map Run.listens?).set run (some (.catchUp downloader, arming)) =
        s.runs.map Run.listens? := by
      obtain ⟨hlt, heq⟩ := List.getElem?_eq_some_iff.mp hlistens
      rw [← heq]
      exact List.set_getElem_self hlt
    dsimp only
    rw [wiring_setRun]
    unfold wiring
    dsimp only [Run.listens?]
    rw [hset, hsame, List.modify_id]
    exact h
  | ended result =>
    have hsilent := hleave fun stage' heq => by rw [hturn] at heq; cases heq
    dsimp only
    split
    · cases result with
      | ok pivot => exact sound_handOver hsilent r pivot
      | error e => exact sound_finish hsilent (.error e)
    · exact sound_finish hsilent (.ok ())
  | panicked =>
    have hsilent := hleave fun stage' heq => by rw [hturn] at heq; cases heq
    dsimp only
    rw [wiring_setRun_of_listens?_eq_none rfl]
    exact hsilent

/-! ### Whatever happens -/

/-- A step of a run keeps the wiring sound. -/
theorem sound_resume (h : s.wiring.Sound) (r : Replies) (run : Nat) (event : Event) :
    (s.resume r run event).wiring.Sound := by
  unfold resume
  split
  · next hrun =>
    split
    · have hnone : Run.fresh.listens? = none := rfl
      have hsilent : s.wiring.silence run = s.wiring := by
        rw [← wiring_setRun_of_listens?_eq_none hnone, setRun_self hrun]
      apply sound_follow
      rw [wiring_enableFallback, wiring_change, hsilent]
      exact h
    · exact h
  · next downloader arming stage hrun =>
    split
    · next c hc => exact sound_afterCatchUp h hrun hc r s.book event
    · exact h
  · next arming stage hrun =>
    split
    · next f hf =>
      refine sound_afterFullSync ?_ (List.getElem?_eq_some_iff.mp hrun).1 r s.book event
      have hsame : { s with fullSync := some f } = s := by rw [← hf]
      rw [hsame, setRun_self hrun]
      exact h
    · exact h
  · exact h

/-- To stop keeps the wiring sound. -/
theorem sound_stop (h : s.wiring.Sound) (r : Replies) : (s.stop r).wiring.Sound := by
  cases hrunning : s.running with
  | false => rwa [stop_of_not_running hrunning]
  | true => exact (wiring_stop hrunning r) ▸ h.stop

/-- To start keeps the wiring sound. -/
theorem sound_start (h : s.wiring.Sound) {r : Replies} (ht : s.start r = .ok t) :
    t.wiring.Sound := by
  cases hrunning : s.running with
  | false => exact (wiring_start hrunning ht) ▸ h.begin hrunning
  | true => rw [start_of_running hrunning] at ht; cases ht

/-- A synchronizer that was stopped has no active run. -/
theorem running_stop (s : Synchronizer) (r : Replies) : (s.stop r).running = false := by
  cases hrunning : s.running with
  | false => rwa [stop_of_not_running hrunning]
  | true =>
    rw [stop_of_running hrunning, callIf_eq, callIf_eq]

/-- What is left to start when a synchronizer starts over. -/
def discarded (s : Synchronizer) (r : Replies) : Synchronizer :=
  let t := ((s.stop r).callIf (s.stop r).catchUp?.isSome .deletePivot).change .restart
  { t with catchUps := t.catchUps ++ (t.catchUp?.map CatchUp.anew).toList }

/-- Starting over is to stop, to discard, and to start. -/
theorem start_discarded (s : Synchronizer) (r r' : Replies) :
    (s.discarded r).start r' = .ok (s.resync r r').2 := by
  have hrunning : (s.discarded r).running = false := by
    unfold discarded
    rw [callIf_eq]
    exact s.running_stop r
  have hresync : (s.resync r r').2 = (s.discarded r).act (.start r') := rfl
  rw [hresync, act, start_of_not_running hrunning]

/-- To discard is to get a new downloader. -/
theorem wiring_discarded (s : Synchronizer) (r : Replies) :
    (s.discarded r).wiring = (s.stop r).wiring.renew := by
  unfold discarded
  rw [callIf_eq]
  generalize s.stop r = t
  have hanew : (t.catchUp?.map CatchUp.anew).toList.map (·.signal) =
      ((t.catchUps.map (·.signal)).getLast?.map fun _ => ({} : StopSignal)).toList := by
    rw [List.getLast?_map]
    unfold catchUp?
    cases t.catchUps.getLast? <;> rfl
  unfold wiring Wiring.renew
  dsimp only [change]
  rw [List.map_append]
  exact congrArg (fun new => Wiring.mk t.running (t.runs.map Run.listens?)
    (t.catchUps.map (·.signal) ++ new) (t.fullSync.map (·.signal))) hanew

/-- **Whatever happens keeps the wiring sound.** -/
theorem sound_act (h : s.wiring.Sound) (x : Act) : (s.act x).wiring.Sound := by
  cases x with
  | start r =>
    dsimp only [act]
    split
    · next t hstart => exact sound_start h hstart
    · exact h
  | stop r => exact sound_stop h r
  | resync r r' =>
    refine sound_start ?_ (s.start_discarded r r')
    rw [wiring_discarded]
    exact (sound_stop h r).renew (s.running_stop r)
  | step r run event => exact sound_resume h r run event
  | announce state =>
    dsimp only [act, announce]
    rw [wiring_callIf, wiring_callIf]
    exact h
  | operate op => exact h

/-- Nobody listens at first, and nothing is armed. -/
theorem Pristine.sound (h : s.Pristine) : s.wiring.Sound := by
  have hnobody : ∀ {run src arming}, ¬ s.wiring.Listens run src arming := by
    intro run src arming hl
    unfold Wiring.Listens wiring at hl
    rw [h.runs] at hl
    cases hl
  have hunarmed : ∀ {src σ}, s.wiring.signal? src = some σ → σ = {} := by
    intro src σ hσ
    cases src with
    | catchUp downloader =>
      have hmem := List.mem_of_getElem? hσ
      obtain ⟨c, hc, rfl⟩ := List.mem_map.mp hmem
      exact h.catchUps c hc
    | fullSync =>
      obtain ⟨f, hf, rfl⟩ := Option.map_eq_some_iff.mp hσ
      exact h.fullSync f hf
  refine ⟨fun hl => absurd hl hnobody, fun hl => absurd hl hnobody, fun hl => absurd hl hnobody,
    fun hσ harmed => ?_⟩
  rw [hunarmed hσ] at harmed
  cases harmed

/-- **The wiring is sound after every history.** -/
theorem Pristine.sound_after (hs : s.Pristine) (h : List Act) : (s.after h).wiring.Sound :=
  after_induction (fun t => t.wiring.Sound) (fun _ => True) hs.sound
    (fun _ x ht _ => sound_act ht x) fun _ _ => trivial

end Synchronizer

end ExecutionNode.Sync
