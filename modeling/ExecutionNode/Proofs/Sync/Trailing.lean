import ExecutionNode.Proofs.Sync.Following
import ExecutionNode.Proofs.Sync.Published

/-!
# Which peers a synchronizer needs

Peers that trail behind may be let go unless the active download needs them.  Which download that is
tells from the stop signals: at most one is armed, and the current run listens to it.  A catch-up
asks for the peers that have its pivot block, as long as the initial phase runs; full sync asks for
those at the local head, until the node is in sync; nobody else asks for anything.

A catch-up goes by the pivot block that its downloader remembers.  That need not be its own: a run
that is merely started has the downloader of the run before, so until it publishes a pivot block of
its own, the one of that run shows.

* `trailingPeers_of_catchingUp`, `trailingPeers_of_following`, `trailingPeers_of_silent`: what shows
  while a run catches up, follows the chain, or does neither.
* `Limits.after`: how many trailing peers full sync keeps is as it was set.
* `trailing_goes_by_published`: which peers are needed after any history.
* `stopped_catch_up_shows`: a pivot block of a run that was stopped shows.
-/

namespace ExecutionNode.Sync

/-- Which peers are needed by whoever goes by a pivot block, if there is any: those that have it. -/
def TrailingPeers.having : Option SealedHeader → TrailingPeers
  | some pivot => ⟨pivot.number, 0⟩
  | none => .unrestricted

namespace CatchUp

variable {c : CatchUp} {p : Progress}

/-- A downloader that is not armed needs no peers. -/
theorem trailingPeers_of_unarmed (h : c.signal.isArmed = false) : c.trailingPeers p = none := by
  unfold trailingPeers
  rw [h]
  rfl

/-- An armed downloader needs the peers that have the pivot block it remembers, while the initial
phase runs. -/
theorem trailingPeers_of_armed (h : c.signal.isArmed = true) :
    (c.trailingPeers p).getD .unrestricted =
      if !p.initialDone then .having c.pivot else .unrestricted := by
  unfold trailingPeers
  rw [h, Bool.true_and]
  split
  · cases c.pivot <;> rfl
  · rfl

end CatchUp

namespace FullSync

variable {f : FullSync} {s : State}

/-- Full sync that is not armed needs no peers. -/
theorem trailingPeers_of_unarmed (h : f.signal.isArmed = false) : f.trailingPeers s = none := by
  unfold trailingPeers
  rw [h]
  rfl

/-- Armed full sync needs the peers at the local head, until the node is in sync. -/
theorem trailingPeers_of_armed (h : f.signal.isArmed = true) :
    f.trailingPeers s = some (if s.inSync then .unrestricted
      else ⟨s.progress.localHead, f.maxTrailingPeers.getD TrailingPeers.all⟩) := by
  unfold trailingPeers
  rw [h, if_neg (by decide)]
  split <;> rfl

end FullSync

namespace Synchronizer

variable {s s₀ : Synchronizer} {run : Nat}

/-! ### Who is armed -/

/-- A signal that one run listens to is armed only if that is the current run's. -/
theorem unarmed_of_silent (hsound : s.wiring.Sound)
    (hsilent : ∀ run, s.isCurrent run = true → s.wiring.Silent run) {src : Source}
    {σ : StopSignal} (hσ : s.wiring.signal? src = some σ) : σ.isArmed = false := by
  cases harmed : σ.isArmed with
  | false => rfl
  | true =>
    obtain ⟨run, arming, hcurrent, hlistens⟩ := hsound.armed hσ harmed
    exact absurd hlistens (hsilent run (isCurrent_iff.mpr hcurrent) src arming)

/-- **While the current run waits for no download, or there is none, no peers are needed.** -/
theorem trailingPeers_of_silent (hsound : s.wiring.Sound)
    (hsilent : ∀ run, s.isCurrent run = true → s.wiring.Silent run) :
    s.trailingPeers = .unrestricted := by
  have hcatchUp : s.catchUp?.bind (·.trailingPeers s.state.progress) = none := by
    rw [Option.bind_eq_none_iff]
    intro c hc
    obtain ⟨downloader, hc⟩ := List.mem_iff_getElem?.mp (List.mem_of_getLast? hc)
    exact CatchUp.trailingPeers_of_unarmed
      (unarmed_of_silent hsound hsilent (signal?_of_catchUps hc))
  have hfullSync : s.fullSync.bind (·.trailingPeers s.state) = none := by
    rw [Option.bind_eq_none_iff]
    intro f hf
    exact FullSync.trailingPeers_of_unarmed
      (unarmed_of_silent hsound hsilent (signal?_of_fullSync hf))
  unfold trailingPeers
  rw [hcatchUp, hfullSync]
  rfl

/-- **While the current run catches up, the peers are needed that have the pivot block which its
downloader remembers.** -/
theorem trailingPeers_of_catchingUp (hsound : s.wiring.Sound) (hcurrent : s.isCurrent run = true)
    {downloader arming : Nat} {stage : CatchUp.Stage}
    (hrun : s.runs[run]? = some (.catchingUp downloader arming stage)) :
    s.trailingPeers =
      if s.state.isSyncing then .having (s.remembered? downloader) else .unrestricted := by
  have hlistens := listens_of_catchingUp hrun
  obtain ⟨hsignal, -⟩ := hsound.current hlistens (isCurrent_iff.mp hcurrent)
  obtain ⟨c, hc⟩ := exists_catchUp_of_sound hsound hrun
  have harmed : c.signal.isArmed = true := by
    rw [Option.some.inj ((signal?_of_catchUps hc).symm.trans hsignal)]
    rfl
  have hnewest : s.catchUp? = some c := by
    unfold catchUp?
    rw [List.getLast?_eq_getElem?, ← newest_of_isCurrent hsound hcurrent hrun]
    exact hc
  have hfullSync : s.fullSync.bind (·.trailingPeers s.state) = none := by
    rw [Option.bind_eq_none_iff]
    intro f hf
    refine FullSync.trailingPeers_of_unarmed ((Bool.not_eq_true _).mp fun hboth => ?_)
    exact not_both_armed hsound (List.mem_of_getElem? hc) hf ⟨harmed, hboth⟩
  unfold trailingPeers remembered?
  rw [hnewest, hfullSync, Option.or_none, hc]
  exact CatchUp.trailingPeers_of_armed harmed

/-- **While the current run follows the chain, the peers at the local head are needed** until the
node is in sync. -/
theorem trailingPeers_of_following (hsound : s.wiring.Sound) (hcurrent : s.isCurrent run = true)
    {arming : Nat} {stage : FullSync.Stage} {f : FullSync}
    (hrun : s.runs[run]? = some (.following arming stage)) (hf : s.fullSync = some f) :
    s.trailingPeers = if s.state.inSync then .unrestricted
      else ⟨s.state.progress.localHead, f.maxTrailingPeers.getD TrailingPeers.all⟩ := by
  obtain ⟨hsignal, -⟩ := hsound.current (listens_of_following hrun) (isCurrent_iff.mp hcurrent)
  have harmed : f.signal.isArmed = true := by
    rw [Option.some.inj ((signal?_of_fullSync hf).symm.trans hsignal)]
    rfl
  have hcatchUp : s.catchUp?.bind (·.trailingPeers s.state.progress) = none := by
    rw [Option.bind_eq_none_iff]
    intro c hc
    refine CatchUp.trailingPeers_of_unarmed ((Bool.not_eq_true _).mp fun hboth => ?_)
    exact not_both_armed hsound (List.mem_of_getLast? hc) hf ⟨hboth, harmed⟩
  unfold trailingPeers
  rw [hcatchUp, hf, Option.none_or, Option.bind_some, FullSync.trailingPeers_of_armed harmed]
  rfl

/-! ### The settings of full sync -/

/-- Full sync, if there is any, keeps so many trailing peers. -/
def Limits (limit : Option UInt64) (s : Synchronizer) : Prop :=
  ∀ f, s.fullSync = some f → f.maxTrailingPeers = limit

section limits

variable {limit : Option UInt64}

/-- The end of a run does not touch full sync. -/
theorem fullSync_finish (s : Synchronizer) (run : Nat) (result : Except RunError Unit) :
    (s.finish run result).fullSync = s.fullSync := by
  unfold finish windDown
  dsimp only
  split
  · rw [callIf_eq, callIf_eq]
    rfl
  · rfl

/-- The end of a run leaves the settings of full sync. -/
theorem Limits.finish (h : s.Limits limit) (run : Nat) (result : Except RunError Unit) :
    (s.finish run result).Limits limit := by
  intro f hf
  rw [fullSync_finish] at hf
  exact h f hf

/-- To conclude does not touch full sync. -/
theorem fullSync_conclude (s : Synchronizer) (r : Replies) (run : Nat) :
    (s.conclude r run).fullSync = s.fullSync := by
  unfold conclude
  dsimp only
  rw [fullSync_finish]
  split <;> rfl

/-- A step of full sync leaves its settings. -/
theorem limits_afterFullSync (s : Synchronizer) {f : FullSync} (hf : f.maxTrailingPeers = limit)
    (r : Replies) (run arming other : Nat) (b : Logbook) (stage : FullSync.Stage) (event : Event) :
    Limits limit (s.afterFullSync r run arming (f.resume r b other stage event)) := by
  have hkept : (f.resume r b other stage event).fullSync.maxTrailingPeers = limit := by
    rw [f.fullSync_resume]
    exact hf
  generalize f.resume r b other stage event = o at hkept
  have hset : ∀ {t : Synchronizer}, t.fullSync = some o.fullSync → Limits limit t := by
    intro t ht f' hf'
    rw [ht] at hf'
    rw [← Option.some.inj hf', hkept]
  unfold afterFullSync
  dsimp only
  cases o.turn with
  | waiting stage' => exact hset rfl
  | panicked => exact hset rfl
  | ended result =>
    cases result with
    | ok _ => exact hset (fullSync_conclude _ r run)
    | error e => exact hset (fullSync_finish _ run _)

/-- To go on with full sync leaves its settings. -/
theorem Limits.follow (h : s.Limits limit) (r : Replies) (run : Nat) :
    (s.follow r run).Limits limit := by
  unfold Synchronizer.follow
  split
  · dsimp only
    rw [callIf_eq]
    split
    next hf =>
      intro f hf'
      rw [fullSync_conclude, hf] at hf'
      cases hf'
    next f hf => exact limits_afterFullSync _ (f := f.start) (h f hf) r run _ _ _ _ _
  · exact h.finish run _

/-- To hand over leaves the settings of full sync. -/
theorem Limits.handOver (h : s.Limits limit) (r : Replies) (run : Nat) (pivot : SealedHeader) :
    (s.handOver r run pivot).Limits limit := by
  have hcalled : (s.call .deletePivot).Limits limit := h
  cases hdelete : r.delete with
  | error e =>
    rw [s.handOver_of_delete_error run pivot hdelete]
    exact hcalled.finish run _
  | ok _ =>
    cases hanchor : r.anchor with
    | error e =>
      have hanchored : ((s.call .deletePivot).call (.anchor pivot)).Limits limit := h
      rw [s.handOver_of_anchor_error run pivot hdelete hanchor]
      exact hanchored.finish run _
    | ok _ =>
      have harrived : (s.arrived r pivot).Limits limit := fun f hf => by
        rw [fullSync_arrived] at hf
        exact h f hf
      rw [s.handOver_of_ok run pivot hdelete hanchor]
      split
      · have hchanged : ((s.arrived r pivot).change (.terminal true)).Limits limit := harrived
        exact hchanged.finish run _
      · exact harrived.follow r run

/-- A step of a catch-up leaves the settings of full sync. -/
theorem Limits.afterCatchUp (h : s.Limits limit) (r : Replies) (run downloader arming : Nat)
    (o : CatchUp.Outcome) : (s.afterCatchUp r run downloader arming o).Limits limit := by
  have hnoted : Limits limit
      { s with catchUps := s.catchUps.set downloader o.catchUp, book := o.book } := h
  unfold Synchronizer.afterCatchUp
  dsimp only
  cases o.turn with
  | waiting stage => exact hnoted
  | panicked => exact hnoted
  | ended result =>
    dsimp only
    split
    · cases result with
      | ok pivot => exact hnoted.handOver r run pivot
      | error e => exact hnoted.finish run _
    · exact hnoted.finish run _

/-- A step of a run leaves the settings of full sync. -/
theorem Limits.resume (h : s.Limits limit) (r : Replies) (run : Nat) (event : Event) :
    (s.resume r run event).Limits limit := by
  unfold Synchronizer.resume
  split
  · split
    · refine Limits.follow (fun f hf => ?_) r run
      rw [fullSync_enableFallback] at hf
      exact h f hf
    · exact h
  · split
    · exact h.afterCatchUp r run _ _ _
    · exact h
  · split
    next f hf => exact s.limits_afterFullSync (h f hf) r run _ _ _ _ _
    · exact h
  · exact h

/-- To stop leaves the settings of full sync. -/
theorem Limits.stop (h : s.Limits limit) (r : Replies) : (s.stop r).Limits limit := by
  cases hrunning : s.running with
  | false => rwa [stop_of_not_running hrunning]
  | true =>
    rw [stop_of_running hrunning, callIf_eq, callIf_eq]
    intro f hf
    obtain ⟨f', hf', rfl⟩ := Option.map_eq_some_iff.mp hf
    exact h f' hf'

/-- **Whatever happens leaves the settings of full sync.** -/
theorem Limits.act (h : s.Limits limit) (a : Act) : (s.act a).Limits limit := by
  have hsame : ∀ {t : Synchronizer}, t.fullSync = s.fullSync → t.Limits limit :=
    fun ht f hf => h f (ht.symm.trans hf)
  cases a with
  | start r =>
    dsimp only [Synchronizer.act]
    split
    next t hstart => exact hsame (fullSync_start hstart)
    · exact h
  | stop r => exact h.stop r
  | resync r r' =>
    intro f hf
    rw [show (s.act (.resync r r')).fullSync = (s.discarded r).fullSync from
      fullSync_start (s.start_discarded r r')] at hf
    unfold discarded at hf
    rw [callIf_eq] at hf
    exact h.stop r f hf
  | step r run event => exact h.resume r run event
  | announce state =>
    refine hsame ?_
    dsimp only [Synchronizer.act, announce]
    rw [callIf_eq, callIf_eq]
  | operate op => exact h

/-- **In every history full sync keeps as many trailing peers as it was set to.** -/
theorem Limits.after (h : s.Limits limit) (acts : List Act) : (s.after acts).Limits limit :=
  after_induction (Limits limit) (fun _ => True) h (fun _ a ht _ => ht.act a) fun _ _ => trivial

end limits

/-! ### What comes of it -/

/-- **Which peers are needed.** Assemble a synchronizer and let anything happen to it, in any order
and whatever the collaborators answer.

* While no run is active no peer may be let go.
* While the active run catches up in the initial phase, the peers are needed that have the pivot
  block last published with its downloader; if none was, or the initial phase is over, no peer may
  be let go. The run itself published the pivot block that it has, and nothing while it has none.
* So from the moment on at which the run published its pivot block, exactly the peers that have
  that block are needed, unless another run published one with the same downloader since. Before
  that no peer may be let go if nobody used the downloader to publish one.
* While the active run follows the chain, no peer may be let go if the node is in sync, and
  otherwise those that trail behind the local head, except for as many as was set.
* While the active run has not begun to do either, or broke down, no peer may be let go. -/
theorem trailing_goes_by_published {config : SyncConfig} {has : Collaborators} {isOver : Bool}
    {idle : Duration} {state : Option State}
    (hs : assemble config has isOver idle state = .ok s₀) (h : List Act) :
    let s := s₀.after h
    let published := s₀.publications h
    (s.running = false → s.trailingPeers = .unrestricted) ∧
    ∀ run x, s.isCurrent run = true → s.runs[run]? = some x →
      match x with
      | .catchingUp downloader _ stage =>
        s.trailingPeers = (if s.state.isSyncing then .having (lastPublished? downloader published)
          else .unrestricted) ∧
        ofRun run published = (stage.pivot?.map (⟨run, downloader, ·⟩)).toList ∧
        (∀ earlier later pivot, published = earlier ++ ⟨run, downloader, pivot⟩ :: later →
          (∀ p ∈ later, p.downloader ≠ downloader) → s.state.isSyncing = true →
            s.trailingPeers = ⟨pivot.number, 0⟩) ∧
        ((∀ p ∈ published, p.downloader ≠ downloader) → s.trailingPeers = .unrestricted)
      | .following _ _ =>
        s.trailingPeers = if s.state.inSync then .unrestricted
          else ⟨s.state.progress.localHead, config.maxTrailingPeers.getD TrailingPeers.all⟩
      | _ => s.trailingPeers = .unrestricted := by
  intro s published
  obtain ⟨hpristine, -⟩ := pristine_assemble hs
  have hsound : s.wiring.Sound := hpristine.sound_after h
  have hlimits : s.Limits config.maxTrailingPeers := by
    refine Limits.after (fun f hf => ?_) h
    obtain rfl := eq_assembled hs
    rw [fullSync_assembled hf]
  have hremembered : ∀ downloader,
      s.remembered? downloader = lastPublished? downloader published := by
    refine remembered_after (fun c hc => ?_) h
    obtain rfl := eq_assembled hs
    rw [mem_catchUps_assembled hc]
    rfl
  refine ⟨fun hrunning => trailingPeers_of_silent hsound fun run hcurrent => ?_, ?_⟩
  · exact absurd (isCurrent_iff.mp hcurrent) (Wiring.not_isCurrent hrunning run)
  intro run x hcurrent hrun
  -- the current run is the only one that could listen
  have hsilent : x.listens? = none → s.trailingPeers = .unrestricted := fun hnone => by
    refine trailingPeers_of_silent hsound fun other hother src arming hlistens => ?_
    rw [(isCurrent_iff.mp hother).unique (isCurrent_iff.mp hcurrent)] at hlistens
    simp [Wiring.Listens, wiring, hrun, hnone] at hlistens
  cases x with
  | catchingUp downloader arming stage =>
    have hshown := trailingPeers_of_catchingUp hsound hcurrent hrun
    rw [hremembered] at hshown
    refine ⟨hshown, (hpristine.owns_after h).own hrun, ?_, fun hunused => ?_⟩
    · intro earlier later pivot hpublished hsince hsyncing
      rw [hshown, hpublished, lastPublished?_of_last hsince, if_pos hsyncing]
      rfl
    · rw [hshown, lastPublished?_of_unused hunused]
      split <;> rfl
  | following arming stage =>
    obtain ⟨f, hf⟩ := exists_fullSync_of_sound hsound hrun
    rw [← hlimits f hf]
    exact trailingPeers_of_following hsound hcurrent hrun hf
  | fresh => exact hsilent rfl
  | ended result => exact hsilent rfl
  | panicked => exact hsilent rfl

/-- The first run publishes a pivot block, and the peers that have it are needed. -/
theorem trailing_goes_by_published_of_downloading :
    let h : List Act := [.start (agreeable false), .step (agreeable true) 0 .begun,
      .step (agreeable true) 0 (.selected (.ok latePivot))]
    assemble {} {} false FullSync.defaultIdle none = .ok usual ∧
      (usual.after h).isCurrent 0 = true ∧
      (usual.after h).runs[0]? = some (.catchingUp 0 1 (.downloading latePivot false false)) ∧
      (usual.after h).trailingPeers = ⟨latePivot.number, 0⟩ := by
  intro h
  obtain ⟨-, hactive⟩ := trailing_goes_by_published assemble_usual h
  refine ⟨assemble_usual, rfl, rfl, ?_⟩
  exact (hactive 0 _ rfl rfl).2.2.1 [] [] latePivot rfl nofun rfl

/-- A run is stopped that published its pivot block. The next one has published none, and waits for
one to be chosen; the one of the run before shows. -/
theorem stopped_catch_up_shows :
    let h : List Act := [.resync (agreeable false) (agreeable false),
      .step (agreeable true) 0 .begun, .step (agreeable true) 0 (.selected (.ok latePivot)),
      .stop (agreeable true), .start (agreeable false), .step (agreeable true) 1 .begun]
    let s := usual.after h
    assemble {} {} false FullSync.defaultIdle none = .ok usual ∧ s.isCurrent 1 = true ∧
      s.runs[1]? = some (.catchingUp 1 2 .selecting) ∧ s.state.isSyncing = true ∧
      ofRun 1 (usual.publications h) = [] ∧ s.trailingPeers = ⟨latePivot.number, 0⟩ ∧
      s.trailingPeers ≠ .unrestricted :=
  ⟨assemble_usual, rfl, rfl, rfl, rfl, rfl, by decide⟩

end Synchronizer

end ExecutionNode.Sync
