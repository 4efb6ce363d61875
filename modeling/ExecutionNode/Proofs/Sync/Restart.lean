import ExecutionNode.Proofs.Sync.Phase
import ExecutionNode.Proofs.Sync.Pursuit

/-!
# Starting over

Whoever starts over wants the world state fetched anew, whatever was fetched and kept before.  That
the kept pivot block is forgotten is not enough for it, because this may fail; what counts is that
the new downloader leaves the kept pivot block aside for as long as its run lasts.

* `calls_resync` is what a synchronizer does when it starts over, call by call.
* `runs_resync_of_catchUp` and `catchUps_resync`: the new run has a new downloader.
* `StartsAfresh` is the invariant of that run; `StartsAfresh.mem_pursuit` and
  `StartsAfresh.persists_of_downloading` say where its pivot block comes from.
* `resync_starts_afresh` puts this together.
-/

namespace ExecutionNode.Sync

namespace Synchronizer

variable {s s₀ t : Synchronizer} {run : Nat}

/-! ### What is done -/

/-- What a synchronizer does to stop. -/
def stopCalls (s : Synchronizer) (r : Replies) : List Call :=
  if s.running then
    (if s.prunes then [.stopPruner] else []) ++
      if s.propagates && r.propagating then [.stopPropagation] else []
  else []

/-- What a synchronizer does to start. -/
def startCalls (s : Synchronizer) (r : Replies) : List Call :=
  if s.propagates && !r.propagating then [.startPropagation] else []

/-- A call that may be left out is the last where it is made. -/
theorem calls_callIf (s : Synchronizer) (condition : Bool) (c : Call) :
    (s.callIf condition c).book.calls = s.book.calls ++ if condition then [c] else [] := by
  unfold callIf
  split
  · rfl
  · exact (List.append_nil _).symm

/-- To stop is to switch off. -/
theorem calls_stop (s : Synchronizer) (r : Replies) :
    (s.stop r).book.calls = s.book.calls ++ s.stopCalls r := by
  unfold stopCalls
  cases hrunning : s.running with
  | false =>
    rw [stop_of_not_running hrunning]
    exact (List.append_nil _).symm
  | true =>
    rw [stop_of_running hrunning, calls_callIf, calls_callIf, List.append_assoc]
    rfl

/-- To start is to switch on. -/
theorem calls_start {r : Replies} (ht : s.start r = .ok t) :
    t.book.calls = s.book.calls ++ s.startCalls r := by
  cases hrunning : s.running with
  | false =>
    rw [start_of_not_running hrunning] at ht
    rw [← Except.ok.inj ht, calls_callIf]
    rfl
  | true => rw [start_of_running hrunning] at ht; cases ht

/-- To stop leaves the downloader that was the newest, stopped or not. -/
theorem anew_catchUp?_stop (s : Synchronizer) (r : Replies) :
    (s.stop r).catchUp?.map CatchUp.anew = s.catchUp?.map CatchUp.anew := by
  cases hrunning : s.running with
  | false => rw [stop_of_not_running hrunning]
  | true =>
    rw [stop_of_running hrunning, callIf_eq, callIf_eq]
    unfold catchUp? mapCatchUp
    dsimp only
    rw [List.getLast?_eq_getElem?, List.getLast?_eq_getElem?, List.length_modify,
      List.getElem?_modify_eq]
    cases s.catchUps[s.catchUps.length - 1]? <;> rfl

/-- **What a synchronizer does when it starts over**: it stops, forgets the kept pivot block, begins
the initial phase again, and starts. -/
theorem calls_resync (s : Synchronizer) (r r' : Replies) :
    ∃ notices : List Notice, (s.resync r r').2.book.calls = s.book.calls ++ (s.stopCalls r ++
      (if s.catchUp?.isSome then [.deletePivot] else []) ++
        .change .restart :: notices.map .notify ++ s.startCalls r') := by
  have hsome : (s.stop r).catchUp?.isSome = s.catchUp?.isSome := by
    rw [← Option.isSome_map (f := CatchUp.anew), anew_catchUp?_stop, Option.isSome_map]
  obtain ⟨notices, hchange⟩ :=
    ((s.stop r).callIf (s.stop r).catchUp?.isSome .deletePivot).book.calls_change .restart
  have hdiscarded : (s.discarded r).book.calls = s.book.calls ++ (s.stopCalls r ++
      (if s.catchUp?.isSome then [.deletePivot] else []) ++
        .change .restart :: notices.map .notify) := by
    refine Eq.trans (show _ = Logbook.calls _ from rfl) (hchange.trans ?_)
    rw [calls_callIf, hsome, calls_stop]
    simp only [List.append_assoc]
  have hstart : (s.discarded r).startCalls r' = s.startCalls r' := by
    unfold startCalls
    rw [(s.untouched_discarded r).propagates, propagates_stop]
  refine ⟨notices, ?_⟩
  rw [calls_start (s.start_discarded r r'), hdiscarded, hstart, List.append_assoc]

/-- What was fetched is discarded after the active run is stopped. -/
theorem running_discarded (s : Synchronizer) (r : Replies) : (s.discarded r).running = false :=
  (s.untouched_discarded r).running.trans (s.running_stop r)

/-- To start over is to be left with a new downloader besides the others, with none to forget. -/
theorem catchUp?_discarded {c : CatchUp} (hc : s.catchUp? = some c) (r : Replies) :
    (s.discarded r).catchUp? = some c.anew ∧
      (s.discarded r).catchUps.length = s.catchUps.length + 1 := by
  have hnew : ((s.stop r).catchUp?.map CatchUp.anew).toList = [c.anew] := by
    rw [anew_catchUp?_stop, hc]
    rfl
  have hcatchUps : (s.discarded r).catchUps = (s.stop r).catchUps ++ [c.anew] := by
    rw [← hnew]
    unfold discarded
    rw [callIf_eq]
    rfl
  unfold catchUp?
  rw [hcatchUps, List.getLast?_concat, List.length_append, length_catchUps_stop]
  exact ⟨rfl, rfl⟩

/-- **To start over begins a run** that catches up with a new downloader. -/
theorem runs_resync_of_catchUp {c : CatchUp} (hc : s.catchUp? = some c) (r r' : Replies) :
    (s.resync r r').2.runs = s.runs ++ [.catchingUp s.catchUps.length 1 .fresh] := by
  obtain ⟨hnew, hlength⟩ := catchUp?_discarded hc r
  rw [runs_resync]
  unfold nextRun
  rw [hnew, hlength]
  rfl

/-- **The new downloader** is set like the one before, but starts over. -/
theorem catchUps_resync {c : CatchUp} (hc : s.catchUp? = some c) (r r' : Replies) :
    (s.resync r r').2.catchUps[s.catchUps.length]? = some c.anew.start ∧
      (s.resync r r').2.catchUps.length = s.catchUps.length + 1 := by
  obtain ⟨hnew, hlength⟩ := catchUp?_discarded hc r
  have hstart := s.start_discarded r r'
  refine ⟨?_, (length_catchUps_start hstart).trans hlength⟩
  rw [start_of_not_running (s.running_discarded r)] at hstart
  rw [← Except.ok.inj hstart, callIf_eq]
  unfold catchUp? at hnew
  rw [List.getLast?_eq_getElem?, hlength, Nat.add_sub_cancel] at hnew
  dsimp only [mapCatchUp]
  rw [hlength, Nat.add_sub_cancel, List.getElem?_modify_eq, hnew]
  rfl

/-! ### The run that starts over -/

/-- A run keeps a pivot block that was chosen for it. -/
def Persists (run : Nat) (pivot : SealedHeader) (s : Synchronizer) (a : Act) : Prop :=
  ∃ r downloader arming, a = .step r run (.selected (.ok pivot)) ∧
    s.runs[run]? = some (.catchingUp downloader arming .selecting) ∧ r.save = .ok ()

/-- A run leaves the kept pivot block aside, as long as it catches up. -/
def StartsAfresh (s : Synchronizer) (run : Nat) : Prop :=
  ∃ x, s.runs[run]? = some x ∧ ∀ downloader arming stage,
    x = .catchingUp downloader arming stage →
      ∃ c, s.catchUps[downloader]? = some c ∧ c.resync = true

/-- **A run that leaves the kept pivot block aside does so whatever happens.** -/
theorem StartsAfresh.act (h : s.StartsAfresh run) (a : Act) : (s.act a).StartsAfresh run := by
  obtain ⟨x, hx, hafresh⟩ := h
  have hkept : ∀ downloader : Nat,
      (∃ c : CatchUp, s.catchUps[downloader]? = some c ∧ c.resync = true) →
      ∃ c : CatchUp, (s.act a).catchUps[downloader]? = some c ∧ c.resync = true := by
    rintro downloader ⟨c, hc, hresync⟩
    obtain ⟨c', hc', hsettings⟩ := exists_catchUp_act hc a
    exact ⟨c', hc', (congrArg CatchUp.Settings.resync hsettings).trans hresync⟩
  obtain ⟨x', hx', rfl | ⟨r, event, -, hbecomes⟩⟩ := exists_run_act hx a
  · exact ⟨x', hx', fun downloader arming stage hstage => hkept _ (hafresh _ _ _ hstage)⟩
  · refine ⟨x', hx', fun downloader arming stage hstage => ?_⟩
    subst hstage
    cases hbecomes with
    | stays => exact hkept _ (hafresh _ _ _ rfl)
    | begins hpast => exact hpast.elim
    | waits => exact hkept _ (hafresh _ _ _ rfl)
    | completes _ _ _ hpast => exact hpast.elim
    | follows hpast => exact hpast.elim

/-- **A run that leaves the kept pivot block aside does so in every history.** -/
theorem StartsAfresh.after (h : s.StartsAfresh run) (rest : List Act) :
    (s.after rest).StartsAfresh run :=
  after_induction (fun t => t.StartsAfresh run) (fun _ => True) h (fun _ a ht _ => ht.act a)
    fun _ _ => trivial

/-- The run that a synchronizer begins when it starts over leaves the kept pivot block aside. -/
theorem startsAfresh_resync {c : CatchUp} (hc : s.catchUp? = some c) (r r' : Replies) :
    (s.resync r r').2.StartsAfresh s.runs.length := by
  refine ⟨.catchingUp s.catchUps.length 1 .fresh, ?_, fun downloader arming stage hstage => ?_⟩
  · rw [runs_resync_of_catchUp hc, List.getElem?_concat_length]
  · obtain ⟨rfl, -, -⟩ := Run.catchingUp.inj hstage
    exact ⟨c.anew.start, (catchUps_resync hc r r').1, rfl⟩

/-- **What a run that leaves the kept pivot block aside does about pivot blocks**: it has one
chosen, downloads just what it is given then, and forgets what it kept when it hands over. -/
theorem StartsAfresh.mem_pursuit (h : s.StartsAfresh run) {r : Replies} {event : Event}
    {call : Call} (hcall : call ∈ s.pursuit r run event) :
    call = .selectPivot ∨ call = .deletePivot ∨ ∃ pivot, event = .selected (.ok pivot) ∧
      (call = .savePivot pivot ∨ (∃ start, call = .importToPivot start pivot) ∨
        ∃ method, call = .downloadState pivot method) := by
  obtain ⟨x, hx, hafresh⟩ := h
  cases x with
  | catchingUp downloader arming stage =>
    obtain ⟨c, hc, hresync⟩ := hafresh _ _ _ rfl
    rw [pursuit_of_catchingUp hx hc] at hcall
    rcases List.mem_append.mp hcall with hcall | hcall
    · rcases CatchUp.mem_pursuit_of_resync hresync hcall with
        rfl | ⟨pivot, rfl, rfl | rfl | rfl⟩
      · exact .inl rfl
      · exact .inr (.inr ⟨pivot, rfl, .inl rfl⟩)
      · exact .inr (.inr ⟨pivot, rfl, .inr (.inl ⟨_, rfl⟩)⟩)
      · exact .inr (.inr ⟨pivot, rfl, .inr (.inr ⟨_, rfl⟩)⟩)
    · split at hcall
      · split at hcall
        · exact .inr (.inl (List.mem_singleton.mp hcall))
        · cases hcall
      · cases hcall
  | _ =>
    unfold pursuit at hcall
    rw [hx] at hcall
    cases hcall

/-- **Where the pivot block of such a run comes from**: it was chosen for that run, which kept it.
The induction is on the history from its end. -/
theorem StartsAfresh.persists_of_downloading (h : s.StartsAfresh run)
    (hnone : ∀ downloader arming pivot chainDone stateDone, s.runs[run]? ≠
      some (.catchingUp downloader arming (.downloading pivot chainDone stateDone)))
    {rest : List Act} {downloader arming : Nat} {pivot : SealedHeader} {chainDone stateDone : Bool}
    (hrun : (s.after rest).runs[run]? =
      some (.catchingUp downloader arming (.downloading pivot chainDone stateDone))) :
    Happened (Persists run pivot) s rest := by
  induction rest using List.reverseRecOn generalizing downloader arming chainDone stateDone with
  | nil => exact absurd hrun (hnone _ _ _ _ _)
  | append_singleton rest a ih =>
    obtain ⟨x, hx, hafresh⟩ := h.after rest
    obtain ⟨x', hx', hcases⟩ := exists_run_act hx a
    rw [after_concat] at hrun
    obtain rfl := Option.some.inj (hrun.symm.trans hx')
    rcases hcases with rfl | ⟨r, event, rfl, hbecomes⟩
    · exact (ih hx).later [a]
    · cases hbecomes with
      | stays => exact (ih hx).later _
      | begins hpast => exact hpast.elim
      | completes _ _ _ hpast => exact hpast.elim
      | follows hpast => exact hpast.elim
      | @waits _ _ stage _ c hc hturn =>
        cases CatchUp.obtains_of_waiting hturn with
        | had => exact (ih hx).later _
        | takenUp hresync =>
          obtain ⟨c', hc', hresync'⟩ := hafresh _ _ _ rfl
          obtain rfl := Option.some.inj (hc.symm.trans hc')
          rw [hresync] at hresync'
          cases hresync'
        | chosen hsave => exact .now ⟨r, downloader, arming, rfl, hx, hsave⟩

/-! ### What comes of it -/

/-- In a pivoted mode there is a downloader for catching up, whatever happens. -/
theorem exists_catchUp?_after (hcatchUps : s₀.catchUps ≠ []) (h : List Act) :
    ∃ c, (s₀.after h).catchUp? = some c := by
  have hne : (s₀.after h).catchUps ≠ [] :=
    after_induction (fun t => t.catchUps ≠ []) (fun _ => True) hcatchUps (fun t a ht _ => by
      have hpos := List.length_pos_iff.mpr ht
      have hle := t.length_catchUps_act a
      exact List.length_pos_iff.mp (by omega)) fun _ _ => trivial
  exact ⟨_, List.getLast?_eq_some_getLast hne⟩

/-- **Starting over.** Assemble a synchronizer in a pivoted mode and let anything happen to it, in
any order and whatever the collaborators answer, so that a run is active or not, has any number of
old ones besides it, and is anywhere. Then start over, with any answers, while nobody who hears of
the sync state acts on it:

* an active run is stopped first, so that nothing is armed any more; then the kept pivot block is
  forgotten, once, whether that succeeds or not; then the initial phase begins again; and then the
  synchronizer is started, which does not fail; the answer is yes;
* after that a new run is active, with a new downloader that starts over and has no pivot block;
* the initial phase runs, whether the download is over for good is open, and the current
  synchronization begins at the local head;
* whatever happens then, that run never takes up the kept pivot block: what it does about pivot
  blocks is to have one chosen, to keep it and download just that, and to forget what is kept when
  it hands over. If it hands over it does so with a pivot block that was chosen for it and that it
  kept. -/
theorem resync_starts_afresh {config : SyncConfig} {has : Collaborators} {isOver : Bool}
    {idle : Duration} {state : Option State}
    (hs : assemble config has isOver idle state = .ok s₀) (hpivoted : config.mode.isPivoted = true)
    (h : List Act) (hquiet : (s₀.after h).state.Quiet) (r r' : Replies) :
    let s := s₀.after h
    let t := (s.resync r r').2
    let run := s.runs.length
    ((s.stop r).running = false ∧ (∀ c ∈ (s.stop r).catchUps, c.signal.isArmed = false) ∧
      (∀ f, (s.stop r).fullSync = some f → f.signal.isArmed = false) ∧
      (∃ notices : List Notice, t.book.calls = s.book.calls ++ (s.stopCalls r ++ [.deletePivot] ++
        .change .restart :: notices.map .notify ++ s.startCalls r')) ∧
      (s.discarded r).start r' = .ok t ∧ (s.resync r r').1 = true) ∧
    (t.isCurrent run = true ∧ t.runs = s.runs ++ [.catchingUp s.catchUps.length 1 .fresh] ∧
      ∃ c, s.catchUp? = some c ∧ t.catchUps[s.catchUps.length]? = some c.anew.start ∧
        t.catchUps.length = s.catchUps.length + 1) ∧
    (t.state.isSyncing = true ∧ t.state.progress.terminal = none ∧
      t.state.progress.starting = s.state.progress.localHead ∧
      t.state.progress.localHead = s.state.progress.localHead) ∧
    ∀ rest, let u := t.after rest
      ∀ r event,
        ((u.resume r run event).book.only Call.concernsPivot =
          u.book.only Call.concernsPivot ++ u.pursuit r run event ∧
        ∀ call ∈ u.pursuit r run event, call = .selectPivot ∨ call = .deletePivot ∨
          ∃ pivot, event = .selected (.ok pivot) ∧ (call = .savePivot pivot ∨
            (∃ start, call = .importToPivot start pivot) ∨
              ∃ method, call = .downloadState pivot method)) ∧
        ∀ pivot, Completes u r run event pivot → Happened (Persists run pivot) t rest := by
  intro s t run
  obtain ⟨hpristine, hcatchUps⟩ := pristine_assemble hs
  obtain ⟨c, hc⟩ := exists_catchUp?_after (hcatchUps.mpr hpivoted) h
  have hsound : (s.stop r).wiring.Sound := sound_stop (hpristine.sound_after h) r
  have hunarmed := unarmed_of_not_running hsound (s.running_stop r)
  obtain ⟨hprogress, -⟩ := progress_resync hquiet r r'
  have hruns := runs_resync_of_catchUp hc r r'
  have hafresh : t.StartsAfresh run := startsAfresh_resync hc r r'
  obtain ⟨notices, hcalls⟩ := s.calls_resync r r'
  rw [show s.catchUp? = some c from hc] at hcalls
  refine ⟨⟨s.running_stop r, hunarmed.1, hunarmed.2, ⟨notices, hcalls⟩,
      s.start_discarded r r', rfl⟩,
    ⟨s.isCurrent_resync r r', hruns, c, hc, catchUps_resync hc r r'⟩,
    ⟨(isSyncing_resync hquiet r r').1, ?_, ?_, ?_⟩, ?_⟩
  · exact (congrArg Progress.terminal hprogress :)
  · exact (congrArg Progress.starting hprogress :)
  · exact (congrArg Progress.localHead hprogress :)
  · intro rest u r'' event
    refine ⟨⟨u.pursuit_resume r'' run event, fun call => (hafresh.after rest).mem_pursuit⟩,
      fun pivot hcompletes => ?_⟩
    obtain ⟨-, downloader, arming, stage, c', hrun, -, hturn⟩ := hcompletes
    have hnone : ∀ downloader arming pivot chainDone stateDone, t.runs[run]? ≠
        some (.catchingUp downloader arming (.downloading pivot chainDone stateDone)) := by
      intro downloader arming pivot chainDone stateDone
      rw [show t.runs = _ from hruns, List.getElem?_concat_length]
      exact nofun
    cases CatchUp.receives_of_ended hturn with
    | chain => exact hafresh.persists_of_downloading hnone hrun
    | state => exact hafresh.persists_of_downloading hnone hrun

/-- A run that waits for nothing but the world state starts over, though the kept pivot block cannot
be forgotten. -/
theorem resync_starts_afresh_of_almostThere :
    assemble {} {} false FullSync.defaultIdle none = .ok usual ∧
      ({} : SyncConfig).mode.isPivoted = true ∧ (usual.after almostThere).state.Quiet ∧
      let r : Replies := { agreeable false with
        load := .ok (some default), delete := .error ⟨.storage, "full"⟩ }
      let t := ((usual.after almostThere).resync (agreeable true) r).2
      t.isCurrent 1 = true ∧ ∀ call ∈ t.pursuit r 1 .begun, call ≠ .loadPivot := by
  have hquiet : (usual.after almostThere).state.Quiet := fun l hl => nomatch hl
  refine ⟨assemble_usual, rfl, hquiet, ?_⟩
  intro r t
  obtain ⟨-, hcurrent, -, hafter⟩ :=
    resync_starts_afresh assemble_usual rfl almostThere hquiet (agreeable true) r
  refine ⟨hcurrent.1, fun call hcall => ?_⟩
  rcases ((hafter [] r .begun).1.2 call hcall) with rfl | rfl | ⟨pivot, hevent, -⟩
  · exact nofun
  · exact nofun
  · cases hevent

end Synchronizer

end ExecutionNode.Sync
