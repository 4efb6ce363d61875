import ExecutionNode.Proofs.Engine.Permanence
import ExecutionNode.Proofs.Sync.HandOver
import ExecutionNode.Proofs.Sync.Progress

/-!
# What admission knows of a catch-up

While the world state is fetched no block may be executed on top of it.  The engine learns of that
from the sync state alone: it asks whether the initial phase runs.  A synchronizer that starts over
begins that phase again, but one that is merely started does not; so admission is told of a catch-up
exactly if it began by starting over, or while the initial phase was running anyway.

* `Told` says that a run begins in one of these two ways, `Arrives` that its catch-up ends well.
* `isSyncing_act` is the step: as long as a current run has not arrived nothing happens to the
  initial phase.
* `isSyncing_iff_told`: until the current run arrives the initial phase runs exactly if admission
  was told, and then no payload is executed.
* `started_again_executes`: a synchronizer that had caught up before is started again, and a block
  is executed while the world state is fetched anew.
-/

namespace ExecutionNode.Engine

variable {e : Engine} {a : Answers} {payload : Payload}

/-- While the initial phase runs nothing is executed. -/
theorem executed_newPayload_of_syncing (h : a.syncing = true) :
    (e.newPayload a payload).executed = [] := by
  rcases judgePayload_cases e a payload with ⟨_, _, _, _, hexamined⟩ | hidle
  · rw [hexamined.synced] at h
    cases h
  · exact hidle.newPayload.2

/-- While the initial phase runs a new block is answered as such. -/
theorem result_newPayload_of_syncing (h : a.syncing = true) {block : Block}
    (hconv : payload.toBlock e.maxExtraData = .ok block)
    (hunrecorded : e.badBlocks.contains block.hash = false)
    (hunstored : a.block block.hash = .ok none) :
    (e.newPayload a payload).result = .ok .syncing := by
  have hstatus := BadBlocks.status?_eq_none_iff.mpr hunrecorded
  rw [newPayload, result_followedBy, result_reply_after]
  simp [judgePayload, admission, reading, hconv, hstatus, hunstored, h, Reply.after, answer]

end ExecutionNode.Engine

namespace ExecutionNode.Sync

/-- Nobody but the synchronizer operates on the sync state. -/
def Act.IsOwn : Act → Prop
  | .operate _ => False
  | _ => True

namespace Synchronizer

variable {s s₀ t : Synchronizer} {h : List Act} {a : Act} {run : Nat}

/-- The run of a number begins so that admission is told: by starting over, or while the initial
phase runs. -/
def Told (run : Nat) (s : Synchronizer) (a : Act) : Prop :=
  s.runs.length = run ∧ (s.act a).runs.length = run + 1 ∧
    ((∃ r r', a = .resync r r') ∨ s.state.isSyncing = true)

/-- The catch-up of the current run ends well. -/
def Arrives (run : Nat) (s : Synchronizer) (a : Act) : Prop :=
  ∃ r event pivot, a = .step r run event ∧ Completes s r run event pivot

/-! ### The sync state outside of steps -/

/-- A call does not touch the sync state. -/
theorem state_callIf (s : Synchronizer) (condition : Bool) (c : Call) :
    (s.callIf condition c).state = s.state := by
  unfold callIf
  split <;> rfl

/-- To stop does not touch the sync state. -/
theorem state_stop (s : Synchronizer) (r : Replies) : (s.stop r).state = s.state := by
  cases hrunning : s.running with
  | false => rw [stop_of_not_running hrunning]
  | true => rw [stop_of_running hrunning, state_callIf, state_callIf]; rfl

/-- To start does not touch the sync state. -/
theorem state_start {r : Replies} (ht : s.start r = .ok t) : t.state = s.state := by
  cases hrunning : s.running with
  | false =>
    rw [start_of_not_running hrunning] at ht
    rw [← Except.ok.inj ht, state_callIf]
    rfl
  | true => rw [start_of_running hrunning] at ht; cases ht

/-- To try to start does not touch the sync state. -/
theorem state_act_start (s : Synchronizer) (r : Replies) : (s.act (.start r)).state = s.state := by
  cases hstart : s.start r with
  | error e => rw [act_start_of_error hstart]
  | ok t => rw [act_start_of_ok hstart, state_start hstart]

/-- To pass a forkchoice state on does not touch the sync state. -/
theorem state_act_announce (s : Synchronizer) (state : ForkchoiceState) :
    (s.act (.announce state)).state = s.state :=
  (state_callIf _ _ _).trans (state_callIf _ _ _)

/-- Among quiet listeners the restart is all that happens to the progress when a synchronizer starts
over, and they stay quiet. -/
theorem progress_resync (hquiet : s.state.Quiet) (r r' : Replies) :
    (s.resync r r').2.state.progress = s.state.progress.after .restart ∧
      (s.resync r r').2.state.Quiet := by
  have hbefore : ((s.stop r).callIf (s.stop r).catchUp?.isSome .deletePivot).state = s.state :=
    (state_callIf _ _ _).trans (s.state_stop r)
  obtain ⟨hprogress, hquiet'⟩ := Logbook.progress_change
    (b := ((s.stop r).callIf (s.stop r).catchUp?.isSome .deletePivot).book)
    (by rw [show Logbook.state _ = s.state from hbefore]; exact hquiet) .restart
  rw [state_start (s.start_discarded r r'), ← hbefore]
  exact ⟨hprogress, hquiet'⟩

/-- To start over begins the initial phase again. -/
theorem isSyncing_resync (hquiet : s.state.Quiet) (r r' : Replies) :
    (s.resync r r').2.state.isSyncing = true ∧ (s.resync r r').2.state.Quiet := by
  obtain ⟨hprogress, hquiet'⟩ := progress_resync hquiet r r'
  refine ⟨?_, hquiet'⟩
  show (!Progress.initialDone _) = true
  rw [hprogress]
  rfl

/-- Whatever the synchronizer does, quiet listeners stay quiet. -/
theorem quiet_act (hquiet : s.state.Quiet) (ha : a.IsOwn) : (s.act a).state.Quiet := by
  cases a with
  | start r => rwa [s.state_act_start r]
  | stop r => rwa [show (s.act (.stop r)).state = s.state from s.state_stop r]
  | resync r r' => exact (isSyncing_resync hquiet r r').2
  | step r run event => exact (s.extends_resume r run event).quiet hquiet
  | announce state => rwa [s.state_act_announce state]
  | operate op => exact ha.elim

/-! ### While a run has not arrived -/

/-- A step that hands nothing over leaves the initial phase as it is. -/
theorem isSyncing_resume (hquiet : s.state.Quiet) {r : Replies} {event : Event}
    (hledger : (s.resume r run event).ledger = s.ledger) :
    (s.resume r run event).state.isSyncing = s.state.isSyncing := by
  have hdone := (s.extends_resume r run event).initialDone_eq hquiet rfl (q := Call.handsOver) rfl
    (Prod.mk.inj hledger).1
  exact congrArg not hdone

/-- **Nothing happens to the initial phase** while a run that was there before stays current and
does not arrive. -/
theorem isSyncing_act (hquiet : s.state.Quiet) (hfresh : .fresh ∉ s.runs) (ha : a.IsOwn)
    (hlt : run < s.runs.length) (hcurrent : (s.act a).isCurrent run = true)
    (harrives : ¬ Arrives run s a) : (s.act a).state.isSyncing = s.state.isSyncing := by
  cases a with
  | start r => rw [s.state_act_start r]
  | stop r => rw [show (s.act (.stop r)).state = s.state from s.state_stop r]
  | resync r r' =>
    -- a run was added, so that the old one is not the latest
    have hlast := eq_length_of_isCurrent hcurrent
    rw [show (s.act (.resync r r')).runs.length = _ from s.length_runs_resync r r'] at hlast
    omega
  | step r other event =>
    have hother : s.runs[other]? ≠ some .fresh := fun h => hfresh (List.mem_of_getElem? h)
    rcases ledger_resume hother r event with hsame | ⟨pivot, hcompletes, -⟩
    · exact isSyncing_resume hquiet hsame
    · -- only the current run completes
      have hsame : other = run :=
        (isCurrent_iff.mp hcompletes.1).unique
          (isCurrent_iff.mp (isCurrent_of_act hcurrent hlt))
      subst hsame
      exact absurd ⟨r, event, pivot, rfl, hcompletes⟩ harrives
  | announce state => rw [s.state_act_announce state]
  | operate op => exact ha.elim

/-- Admission was told of a run that was just added exactly if the initial phase runs now. -/
theorem isSyncing_act_iff_told (hquiet : s.state.Quiet) (hge : s.runs.length ≤ run)
    (hlast : run + 1 = (s.act a).runs.length) :
    (s.act a).state.isSyncing = true ↔ Told run s a := by
  cases a with
  | start r =>
    cases hstart : s.start r with
    | error e =>
      rw [act_start_of_error hstart] at hlast
      omega
    | ok t =>
      have hlength := s.length_runs_start hstart
      unfold Told
      rw [act_start_of_ok hstart] at hlast ⊢
      rw [state_start hstart]
      constructor
      · exact fun hsyncing => ⟨by omega, by omega, .inr hsyncing⟩
      · rintro ⟨-, -, ⟨_, _, hresync⟩ | hsyncing⟩
        · cases hresync
        · exact hsyncing
  | resync r r' =>
    have hlength : (s.act (.resync r r')).runs.length = _ := s.length_runs_resync r r'
    refine ⟨fun _ => ⟨by omega, ?_, .inl ⟨r, r', rfl⟩⟩, fun _ => (isSyncing_resync hquiet r r').1⟩
    omega
  | stop r =>
    rw [show (s.act (.stop r)).runs = s.runs from s.runs_stop r] at hlast
    omega
  | step r other event =>
    have hlength : (s.act (.step r other event)).runs.length = s.runs.length :=
      (s.touches_resume r other event).le.1
    omega
  | announce state =>
    have hruns : (s.act (.announce state)).runs = s.runs :=
      (runs_callIf _ _ _).trans (runs_callIf _ _ _)
    rw [hruns] at hlast
    omega
  | operate op =>
    have hruns : (s.act (.operate op)).runs = s.runs := rfl
    rw [hruns] at hlast
    omega

/-- A run of which admission was told is there. -/
theorem lt_of_told (htold : Happened (Told run) s₀ h) : run < (s₀.after h).runs.length := by
  obtain ⟨past, x, rest, rfl, -, hlength, -⟩ := htold
  rw [after_append, after_cons]
  have hle := ((s₀.after past).act x).length_runs_after rest
  omega

/-- **Until the current run arrives the initial phase runs exactly if admission was told.** The
induction is on the history from its end: either the run was there before the last act, or the last
act added it. -/
theorem isSyncing_iff_happened_told (hcatchUps : s₀.catchUps ≠ []) (hruns : s₀.runs = [])
    (hquiet : s₀.state.Quiet) (hh : ∀ x ∈ h, x.IsOwn)
    (hcurrent : (s₀.after h).isCurrent run = true) (harrives : ¬ Happened (Arrives run) s₀ h) :
    (s₀.after h).state.isSyncing = true ↔ Happened (Told run) s₀ h := by
  induction h using List.reverseRecOn with
  | nil =>
    have hlast := eq_length_of_isCurrent hcurrent
    rw [after_nil, hruns] at hlast
    cases hlast
  | append_singleton h a ih =>
    have hown : ∀ x ∈ h, x.IsOwn := fun x hx => hh x (List.mem_append_left _ hx)
    have ha : a.IsOwn := hh a (by simp)
    have hquiet' : (s₀.after h).state.Quiet :=
      after_induction (fun t => t.state.Quiet) Act.IsOwn hquiet (fun _ _ => quiet_act) hown
    rw [Happened.concat_iff, not_or] at harrives
    rw [after_concat] at hcurrent ⊢
    rw [Happened.concat_iff]
    by_cases hlt : run < (s₀.after h).runs.length
    · have hnow : ¬ Told run (s₀.after h) a := fun htold => Nat.ne_of_gt hlt htold.1
      have hfresh := fresh_not_mem_after hcatchUps hruns h
      rw [isSyncing_act hquiet' hfresh ha hlt hcurrent harrives.2,
        ih hown (isCurrent_of_act hcurrent hlt) harrives.1, or_iff_left hnow]
    · have hold : ¬ Happened (Told run) s₀ h := fun htold => hlt (lt_of_told htold)
      rw [isSyncing_act_iff_told hquiet' (Nat.le_of_not_lt hlt) (eq_length_of_isCurrent hcurrent),
        or_iff_right hold]

/-! ### Runs that catch up -/

/-- A run is past catching up. -/
def IsPast (s : Synchronizer) (run : Nat) : Prop := ∃ x : Run, s.runs[run]? = some x ∧ x.IsPast

/-- A run that arrives is past catching up. -/
theorem isPast_of_arrives (h : Arrives run s a) : (s.act a).IsPast run := by
  obtain ⟨r, event, pivot, rfl, hcurrent, downloader, arming, stage, c, hrun, hc, hturn⟩ := h
  dsimp only [act]
  unfold resume
  rw [hrun]
  dsimp only
  rw [hc]
  unfold afterCatchUp
  dsimp only
  rw [hturn]
  dsimp only
  rw [if_pos (by exact hcurrent)]
  obtain ⟨x, hpast, -, hruns⟩ := runs_handOver
    { s with
      catchUps := s.catchUps.set downloader (c.resume r s.book arming stage event).catchUp
      book := (c.resume r s.book arming stage event).book } r run pivot
  refine ⟨x, ?_, hpast⟩
  rw [hruns]
  exact List.getElem?_set_self (List.getElem?_eq_some_iff.mp hrun).1

/-- A run that is past catching up stays so. -/
theorem IsPast.act (h : s.IsPast run) (a : Act) : (s.act a).IsPast run := by
  obtain ⟨x, hx, hpast⟩ := h
  obtain ⟨x', hx', hcases⟩ := exists_run_act hx a
  refine ⟨x', hx', ?_⟩
  rcases hcases with rfl | ⟨r, event, -, hbecomes⟩
  · exact hpast
  · cases hbecomes with
    | stays => exact hpast
    | begins => exact hpast.elim
    | waits => exact hpast.elim
    | breaks => trivial
    | completes => exact hpast.elim
    | fails => trivial
    | goes => trivial
    | follows hpast' => exact hpast'

/-- **A run that still catches up has not arrived.** -/
theorem not_arrives_of_catchingUp {downloader arming : Nat} {stage : CatchUp.Stage}
    (hrun : (s₀.after h).runs[run]? = some (.catchingUp downloader arming stage)) :
    ¬ Happened (Arrives run) s₀ h := by
  rintro ⟨past, a, rest, rfl, harrives⟩
  rw [after_append, after_cons] at hrun
  obtain ⟨x, hx, hpast⟩ := after_induction (fun t => t.IsPast run) (fun _ => True)
    (isPast_of_arrives harrives) (fun _ y ht _ => ht.act y) (h := rest) fun _ _ => trivial
  obtain rfl := Option.some.inj (hx.symm.trans hrun)
  exact hpast

/-! ### What admission is told -/

/-- **Admission is told of a catch-up exactly if it began by starting over, or while the initial
phase was running anyway.** Assemble a synchronizer in a pivoted mode around a sync state whose
listeners only listen, and let it be started, stopped and started over, its runs make steps and
forkchoice states be passed on, in any order and whatever the collaborators answer. As long as the
current run has not arrived:

* the initial phase runs exactly if admission was told of that run;
* if it was told, then no engine executes a payload, and it answers every block that is neither
  recorded as bad nor stored with `syncing`. -/
theorem isSyncing_iff_told {config : SyncConfig} {has : Collaborators} {isOver : Bool}
    {idle : Duration} {state : Option State}
    (hs : assemble config has isOver idle state = .ok s₀) (hmode : config.mode.isPivoted = true)
    (hquiet : s₀.state.Quiet) (hh : ∀ x ∈ h, x.IsOwn)
    (hcurrent : (s₀.after h).isCurrent run = true) (harrives : ¬ Happened (Arrives run) s₀ h) :
    ((s₀.after h).state.isSyncing = true ↔ Happened (Told run) s₀ h) ∧
      (Happened (Told run) s₀ h → ∀ (e : Engine) (a : Engine.Answers) (payload : Payload),
        a.syncing = (s₀.after h).state.isSyncing →
        (e.newPayload a payload).executed = [] ∧
          ∀ block, payload.toBlock e.maxExtraData = .ok block →
            e.badBlocks.contains block.hash = false → a.block block.hash = .ok none →
            (e.newPayload a payload).result = .ok .syncing) := by
  obtain ⟨hpristine, hpivoted⟩ := pristine_assemble hs
  have htold := isSyncing_iff_happened_told (hpivoted.mpr hmode) hpristine.runs hquiet hh hcurrent
    harrives
  refine ⟨htold, fun hbegun e a payload hasked => ?_⟩
  have hsyncing : a.syncing = true := hasked.trans (htold.mpr hbegun)
  exact ⟨Engine.executed_newPayload_of_syncing hsyncing,
    fun block => Engine.result_newPayload_of_syncing hsyncing⟩

/-- Admission is told of the first catch-up, so that nothing is executed meanwhile. -/
theorem isSyncing_of_first_start :
    assemble {} {} false FullSync.defaultIdle none = .ok usual ∧
      (usual.after [.start (agreeable false)]).isCurrent 0 = true ∧
      ¬ Happened (Arrives 0) usual [.start (agreeable false)] ∧
      Happened (Told 0) usual [.start (agreeable false)] ∧
      ∀ (e : Engine) (a : Engine.Answers) (payload : Payload),
        a.syncing = (usual.after [.start (agreeable false)]).state.isSyncing →
        (e.newPayload a payload).executed = [] := by
  have hquiet : usual.state.Quiet := by
    intro l hl
    cases hl
  have hown : ∀ x ∈ [Act.start (agreeable false)], x.IsOwn := by
    intro x hx
    rw [List.mem_singleton.mp hx]
    trivial
  have hcatchesUp : ¬ Happened (Arrives 0) usual [.start (agreeable false)] :=
    not_arrives_of_catchingUp rfl
  obtain ⟨htold, hanswers⟩ := isSyncing_iff_told assemble_usual rfl hquiet hown rfl hcatchesUp
  have hbegun := htold.mp rfl
  exact ⟨assemble_usual, rfl, hcatchesUp, hbegun,
    fun e a payload hasked => (hanswers hbegun e a payload hasked).1⟩

/-- A synchronizer catches up, is stopped, and is started again. -/
def startedAgain : List Act :=
  almostThere ++ [.step (agreeable true) 0 (.stateDownloaded (.ok ())), .stop (agreeable true),
    .start (agreeable false)]

/-- Admission is not told of a catch-up that begins by a mere start after an earlier one: a block
is executed while the world state is fetched anew. -/
theorem started_again_executes :
    assemble {} {} false FullSync.defaultIdle none = .ok usual ∧
      (∀ x ∈ startedAgain, x.IsOwn) ∧ (usual.after startedAgain).isCurrent 1 = true ∧
      ¬ Happened (Arrives 1) usual startedAgain ∧
      (usual.after startedAgain).state.isSyncing = false ∧
      (Engine.fresh.newPayload { Engine.failing "wrong state root" with
        syncing := (usual.after startedAgain).state.isSyncing } (Engine.barePayload 12)).executed =
          [Engine.bareBlock 12] := by
  have hsyncing : (usual.after startedAgain).state.isSyncing = false := rfl
  refine ⟨assemble_usual, ?_, rfl, not_arrives_of_catchingUp rfl, hsyncing, ?_⟩
  · simp [startedAgain, almostThere, Act.IsOwn]
  · rw [hsyncing]
    have hexecutes : Engine.Executes Engine.fresh (Engine.failing "wrong state root")
        (.newPayload (Engine.barePayload 12)) (Engine.bareBlock 12) :=
      .examined ⟨Engine.toBlock_barePayload 12, rfl, rfl, rfl, rfl, rfl, rfl⟩
        (by decide : (0 : UInt64) < 12)
    exact hexecutes.executed_handle

end Synchronizer

end ExecutionNode.Sync
