import ExecutionNode.Proofs.Sync.HandOver

/-!
# Which pivot block a run takes up

A catch-up gets its pivot block in one of two ways: it takes up the one that is kept, or it has one
chosen and keeps it.  `CatchUp.pursuit` is what an attempt does about its pivot block in a step, and
`Synchronizer.pursuit` is the same of a run, which forgets the kept pivot block when it hands over.

* `pursuit_resume`: a step of a run does exactly this about pivot blocks.
* `CatchUp.obtains_of_waiting`: an attempt downloads a pivot block only after it took it up or had
  it chosen.
* `settings_act`: nothing that happens touches the settings of a downloader; to start over adds one
  that leaves the kept pivot block aside.
* `KeepsTo.after`: a run that has its pivot block keeps to it.
-/

namespace ExecutionNode.Sync

/-- The calls about pivot blocks. -/
def Call.concernsPivot : Call → Bool
  | loadPivot => true
  | selectPivot => true
  | savePivot _ => true
  | deletePivot => true
  | importToPivot .. => true
  | downloadState .. => true
  | _ => false

/-! ### Full sync -/

namespace FullSync

variable (f : FullSync) (r : Replies) (b : Logbook)

/-- Full sync has nothing to do with pivot blocks. -/
theorem pivots_advance (stage : Stage) (event : Event) :
    (f.advance r b stage event).book.only Call.concernsPivot = b.only Call.concernsPivot := by
  have hask : ∀ b, (f.ask r b).book.only Call.concernsPivot = b.only Call.concernsPivot := by
    intro b
    dsimp only [ask]
    split
    · exact b.only_call_of_not rfl
    · exact (Logbook.only_call_of_not _ rfl).trans (b.only_call_of_not rfl)
  unfold advance
  split
  · exact hask b
  · exact (hask _).trans ((b.only_change (fun _ => rfl) _).trans (b.only_call_of_not rfl))
  · rfl
  · rfl
  · rfl
  · exact hask b
  · rfl

/-- A step of full sync has nothing to do with pivot blocks. -/
theorem pivots_resume (arming : Nat) (stage : Stage) (event : Event) :
    (f.resume r b arming stage event).book.only Call.concernsPivot =
      b.only Call.concernsPivot := by
  rw [book_resume]
  unfold work
  split
  · split <;> rfl
  · exact f.pivots_advance r b stage event

end FullSync

/-! ### An attempt -/

namespace CatchUp

/-- The settings of a downloader. -/
structure Settings where
  /-- The way to the head. -/
  mode : SyncMode
  /-- The trusted block. -/
  checkpoint : Option Checkpoint
  /-- Whether it leaves the kept pivot block aside. -/
  resync : Bool

variable (c : CatchUp) (r : Replies) (b : Logbook)

/-- What an attempt does with a pivot block that is kept already. -/
def taken (pivot : SealedHeader) : List Call :=
  match c.checkpoint.filter (pivot.number < ·.number) with
  | some _ => []
  | none => .importToPivot c.startBlock pivot ::
      match r.importRefused with
      | some _ => []
      | none => [.downloadState pivot c.stateMethod]

/-- What an attempt does about its pivot block in a step. -/
def pursuit : Stage → Event → List Call
  | .fresh, .begun =>
    if c.resync then [.selectPivot]
    else .loadPivot ::
      match r.load with
      | .error _ => []
      | .ok (some pivot) => c.taken r pivot
      | .ok none => [.selectPivot]
  | .selecting, .selected (.ok pivot) => .savePivot pivot ::
      match r.save with
      | .error _ => []
      | .ok () => c.taken r pivot
  | _, _ => []

variable {c r b} {best : UInt64} {arming : Nat} {stage : Stage} {event : Event} {calls : List Call}
  {turn : Turn Stage SealedHeader}

/-- An attempt that has a pivot block either refuses it or asks for what is there. -/
theorem Acquires.pursuit {pivot : SealedHeader} {lead : Call}
    (h : c.Acquires r pivot stage event lead) :
    c.pursuit r stage event = lead :: c.taken r pivot := by
  cases h with
  | takenUp hresync hload =>
    unfold CatchUp.pursuit
    dsimp only
    rw [hresync, hload]
    rfl
  | chosen hsave =>
    unfold CatchUp.pursuit
    dsimp only
    rw [hsave]

/-- What is noted of an attempt that has a pivot block concerns that, except that it is
published. -/
theorem Acquires.filter_concernsPivot {pivot : SealedHeader} {lead : Call}
    (h : c.Acquires r pivot stage event lead) {calls : List Call}
    (hcalls : calls.filter Call.concernsPivot = calls) :
    (lead :: publishing best pivot ++ calls).filter Call.concernsPivot = lead :: calls := by
  have hlead : lead.concernsPivot = true := by
    cases h <;> rfl
  have hpublishing : (publishing best pivot).filter Call.concernsPivot = [] := by
    unfold publishing
    split <;> rfl
  rw [List.filter_append, List.filter_cons_of_pos hlead, hpublishing, hcalls]
  rfl

/-- What an attempt does about its pivot block, as its course tells. -/
theorem Course.pursuit (h : c.Course r best arming stage event calls turn) :
    calls.filter Call.concernsPivot = c.pursuit r stage event := by
  have hnone {stage : Stage} {event : Event} (hfresh : ¬ (stage = .fresh ∧ event = .begun))
      (hselecting : ∀ pivot, ¬ (stage = .selecting ∧ event = .selected (.ok pivot))) :
      [] = c.pursuit r stage event := by
    unfold CatchUp.pursuit
    split
    · exact absurd ⟨rfl, rfl⟩ hfresh
    · exact absurd ⟨rfl, rfl⟩ (hselecting _)
    · rfl
  cases h with
  | waits h =>
    refine hnone ?_ fun pivot => ?_
    · rintro ⟨rfl, rfl⟩; cases h
    · rintro ⟨rfl, rfl⟩; cases h
  | unstopped => exact hnone (by simp) (by simp)
  | stops => exact hnone (by simp) (by simp)
  | startsOver hresync => unfold CatchUp.pursuit; dsimp only; rw [hresync]; rfl
  | findsNone hresync hload => unfold CatchUp.pursuit; dsimp only; rw [hresync, hload]; rfl
  | unread hresync hload => unfold CatchUp.pursuit; dsimp only; rw [hresync, hload]; rfl
  | unkept pivot hsave => unfold CatchUp.pursuit; dsimp only; rw [hsave]; rfl
  | @refuses pivot _ _ lead h trusted hbelow =>
    have hlead : lead.concernsPivot = true := by
      cases h <;> rfl
    rw [h.pursuit, taken, hbelow, List.filter_cons_of_pos hlead]
    rfl
  | downloads h hpassed haccepted =>
    rw [h.filter_concernsPivot rfl, h.pursuit, taken, hpassed, haccepted]
  | unanswered h hpassed hrefused =>
    rw [h.filter_concernsPivot rfl, h.pursuit, taken, hpassed, hrefused]
  | receives h => cases h <;> exact hnone (by simp) (by simp)
  | completes h => cases h <;> exact hnone (by simp) (by simp)
  | misses h => cases h <;> exact hnone (by simp) (by simp)
  | breaks => exact hnone (by simp) (by simp)

variable (c r b)

/-- **What an attempt does about its pivot block in a step.** -/
theorem pivots_resume (arming : Nat) (stage : Stage) (event : Event) :
    (c.resume r b arming stage event).book.only Call.concernsPivot =
      b.only Call.concernsPivot ++ c.pursuit r stage event := by
  obtain ⟨calls, hbook, hcourse⟩ := c.course_resume r b arming stage event
  rw [hbook, b.only_make (fun _ => rfl), hcourse.pursuit]

/-- What a downloader was set to. -/
def settings : Settings := ⟨c.mode, c.checkpoint, c.resync⟩

/-- A step does not touch the settings. -/
theorem settings_resume (arming : Nat) (stage : Stage) (event : Event) :
    (c.resume r b arming stage event).catchUp.settings = c.settings := by
  obtain ⟨pivot, hcatchUp⟩ := c.catchUp_resume r b arming stage event
  rw [hcatchUp]
  rfl

/-! ### Where the pivot block of an attempt comes from -/

/-- An attempt has a pivot block after an event: it had it, took it up, or had it chosen. -/
inductive Obtains (c : CatchUp) (r : Replies) (pivot : SealedHeader) : Stage → Event → Prop where
  /-- It had the pivot block. -/
  | had (chainDone stateDone : Bool) (event : Event) :
      Obtains c r pivot (.downloading pivot chainDone stateDone) event
  /-- It took up the one that is kept. -/
  | takenUp (hresync : c.resync = false) (hload : r.load = .ok (some pivot)) :
      Obtains c r pivot .fresh .begun
  /-- It was chosen, and is kept. -/
  | chosen (hsave : r.save = .ok ()) : Obtains c r pivot .selecting (.selected (.ok pivot))

variable {c r b}

/-- **Where the pivot block of an attempt comes from.** -/
theorem obtains_of_waiting {pivot : SealedHeader} {chainDone stateDone : Bool}
    (hturn : (c.resume r b arming stage event).turn =
      .waiting (.downloading pivot chainDone stateDone)) : c.Obtains r pivot stage event := by
  obtain ⟨calls, -, hcourse⟩ := c.course_resume r b arming stage event
  rw [hturn] at hcourse
  cases hcourse with
  | waits => exact .had _ _ _
  | unstopped => exact .had _ _ _
  | downloads h =>
    cases h with
    | takenUp hresync hload => exact .takenUp hresync hload
    | chosen hsave => exact .chosen hsave
  | unanswered _ _ _ hfailed => exact absurd hfailed.symm (Failure.turn_ne_waiting _ _)
  | receives h => cases h <;> exact .had _ _ _

/-- **An attempt that downloads keeps to its pivot block.** -/
theorem downloading_of_downloading {pivot : SealedHeader} {chainDone stateDone : Bool}
    {stage : Stage}
    (hturn : (c.resume r b arming (.downloading pivot chainDone stateDone) event).turn =
      .waiting stage) : ∃ chainDone stateDone, stage = .downloading pivot chainDone stateDone := by
  obtain ⟨calls, -, hcourse⟩ :=
    c.course_resume r b arming (.downloading pivot chainDone stateDone) event
  rw [hturn] at hcourse
  cases hcourse with
  | waits => exact ⟨_, _, rfl⟩
  | unstopped => exact ⟨_, _, rfl⟩
  | downloads h => cases h
  | unanswered h => cases h
  | receives h => cases h <;> exact ⟨_, _, rfl⟩

/-- An attempt that has a pivot block keeps to it from then on. -/
theorem Acquires.downloading_of_waiting {pivot : SealedHeader} {lead : Call} {stage' : Stage}
    (h : c.Acquires r pivot stage event lead)
    (hturn : (c.resume r b arming stage event).turn = .waiting stage') :
    stage' = .downloading pivot false false := by
  obtain ⟨calls, -, hcourse⟩ := c.course_resume r b arming stage event
  rw [hturn] at hcourse
  obtain ⟨_, -, -, hrefused⟩ | ⟨-, ⟨-, -, hwaiting⟩ | ⟨failure, -, -, hfailed⟩⟩ :=
    hcourse.of_acquires h
  · cases hrefused
  · exact Turn.waiting.inj hwaiting
  · exact absurd hfailed.symm (failure.turn_ne_waiting _)

/-- What is done with a kept pivot block is to ask for the chain and the world state there. -/
theorem mem_taken {pivot : SealedHeader} {call : Call} (h : call ∈ c.taken r pivot) :
    call = .importToPivot c.startBlock pivot ∨ call = .downloadState pivot c.stateMethod := by
  unfold taken at h
  split at h
  · cases h
  · rcases List.mem_cons.mp h with rfl | h
    · exact .inl rfl
    · split at h
      · cases h
      · exact .inr (List.mem_singleton.mp h)

/-- **An attempt that starts over** has a pivot block chosen, and downloads only what it was given
then. -/
theorem mem_pursuit_of_resync (hresync : c.resync = true) {stage : Stage} {event : Event}
    {call : Call} (h : call ∈ c.pursuit r stage event) :
    call = .selectPivot ∨ ∃ pivot, event = .selected (.ok pivot) ∧
      (call = .savePivot pivot ∨ call = .importToPivot c.startBlock pivot ∨
        call = .downloadState pivot c.stateMethod) := by
  unfold pursuit at h
  split at h
  · rw [if_pos hresync] at h
    exact .inl (List.mem_singleton.mp h)
  · next pivot =>
    refine .inr ⟨pivot, rfl, ?_⟩
    rcases List.mem_cons.mp h with rfl | h
    · exact .inl rfl
    · split at h
      · cases h
      · exact .inr (mem_taken h)
  · cases h

end CatchUp

namespace Synchronizer

variable {s t u : Synchronizer} {run : Nat}

/-! ### What comes after a catch-up -/

/-- Nothing is done about pivot blocks, and the downloaders for catching up stay as they are. -/
structure Spares (s t : Synchronizer) : Prop where
  /-- The downloaders are as before. -/
  catchUps : t.catchUps = s.catchUps
  /-- Nothing was done about pivot blocks. -/
  calls : t.book.only Call.concernsPivot = s.book.only Call.concernsPivot

/-- To do nothing spares the catch-ups. -/
theorem Spares.refl (s : Synchronizer) : s.Spares s := ⟨rfl, rfl⟩

/-- What spares the catch-ups may come after the like. -/
theorem Spares.trans (h : s.Spares t) (h' : t.Spares u) : s.Spares u :=
  ⟨h'.catchUps.trans h.catchUps, h'.calls.trans h.calls⟩

/-- A call of another kind spares the catch-ups. -/
theorem spares_call (s : Synchronizer) {c : Call} (h : c.concernsPivot = false) :
    s.Spares (s.call c) :=
  ⟨rfl, s.book.only_call_of_not h⟩

/-- A call of another kind spares the catch-ups, made or left out. -/
theorem spares_callIf (s : Synchronizer) (condition : Bool) {c : Call}
    (h : c.concernsPivot = false) : s.Spares (s.callIf condition c) := by
  have hcalls := only_callIf_of_not s condition h
  rw [callIf_eq] at hcalls ⊢
  exact ⟨rfl, hcalls⟩

/-- A change of the progress spares the catch-ups. -/
theorem spares_change (s : Synchronizer) (c : Progress.Change) : s.Spares (s.change c) :=
  ⟨rfl, (s.book.only_change (fun _ => rfl) c).trans (s.book.only_call_of_not rfl)⟩

/-- What is noted of a run spares the catch-ups. -/
theorem spares_setRun (s : Synchronizer) (run : Nat) (stage : Run) :
    s.Spares (s.setRun run stage) :=
  ⟨rfl, rfl⟩

/-- To have missing nodes fetched on demand spares the catch-ups. -/
theorem spares_enableFallback (s : Synchronizer) (r : Replies) :
    s.Spares (s.enableFallback r) := by
  unfold enableFallback
  split
  · exact ⟨rfl, s.book.only_call_of_not rfl⟩
  · exact .refl s

/-- The end of a run spares the catch-ups. -/
theorem spares_finish (s : Synchronizer) (run : Nat) (result : Except RunError Unit) :
    s.Spares (s.finish run result) := by
  refine (s.spares_setRun run (.ended result)).trans ?_
  unfold finish
  generalize s.setRun run (.ended result) = t
  by_cases hlast : run + 1 = t.runs.length
  · have hcalls := (t.spares_callIf t.propagates (c := .stopPropagation) rfl).trans
      (spares_callIf _ t.prunes (c := .stopPruner) rfl)
    rw [windDown_of_eq hlast]
    rw [callIf_eq, callIf_eq] at hcalls ⊢
    exact ⟨rfl, hcalls.calls⟩
  · rw [windDown_of_ne hlast]
    exact .refl t

/-- A run that has nothing left to download spares the catch-ups. -/
theorem spares_conclude (s : Synchronizer) (r : Replies) (run : Nat) :
    s.Spares (s.conclude r run) := by
  have hconsult := s.spares_call (c := .consultTermination r.overAtEnd) rfl
  unfold conclude
  dsimp only
  split
  · exact (hconsult.trans (spares_change _ _)).trans (spares_finish _ run _)
  · exact hconsult.trans (spares_finish _ run _)

/-- A run that follows the chain spares the catch-ups. -/
theorem spares_afterFullSync (s : Synchronizer) (r : Replies) (run arming : Nat)
    {o : FullSync.Outcome}
    (h : o.book.only Call.concernsPivot = s.book.only Call.concernsPivot) :
    s.Spares (s.afterFullSync r run arming o) := by
  have hnoted : s.Spares { s with fullSync := some o.fullSync, book := o.book } := ⟨rfl, h⟩
  refine hnoted.trans ?_
  unfold afterFullSync
  dsimp only
  cases o.turn with
  | waiting stage => exact spares_setRun _ run _
  | ended result =>
    cases result with
    | ok _ => exact spares_conclude _ r run
    | error e => exact spares_finish _ run _
  | panicked => exact spares_setRun _ run _

/-- A run that goes on with full sync spares the catch-ups. -/
theorem spares_follow (s : Synchronizer) (r : Replies) (run : Nat) :
    s.Spares (s.follow r run) := by
  unfold follow
  split
  · refine (s.spares_callIf s.prunes (c := .startPruner) rfl).trans ?_
    dsimp only
    split
    · exact spares_conclude _ r run
    next f _ =>
      refine (spares_call _ (c := .startFullSync) rfl).trans ?_
      exact spares_afterFullSync _ r run _ (f.start.pivots_resume r _ _ _ _)
  · exact s.spares_finish run _

/-- A run that hands over forgets the kept pivot block first, and spares the catch-ups then. -/
theorem spares_handOver (s : Synchronizer) (r : Replies) (run : Nat) (pivot : SealedHeader) :
    (s.call .deletePivot).Spares (s.handOver r run pivot) := by
  cases hdelete : r.delete with
  | error f =>
    rw [s.handOver_of_delete_error run pivot hdelete]
    exact spares_finish _ run _
  | ok _ =>
    have hanchored := (s.call .deletePivot).spares_call (c := .anchor pivot) rfl
    cases hanchor : r.anchor with
    | error f =>
      rw [s.handOver_of_anchor_error run pivot hdelete hanchor]
      exact hanchored.trans (spares_finish _ run _)
    | ok _ =>
      have harrived : (s.call .deletePivot).Spares (s.arrived r pivot) :=
        (((hanchored.trans (spares_call _ (c := .closeSelector) rfl)).trans
          (spares_change _ .initialDone)).trans (spares_enableFallback _ r)).trans
            (spares_call _ (c := .consultTermination r.overAfterCatchUp) rfl)
      rw [s.handOver_of_ok run pivot hdelete hanchor]
      split
      · exact (harrived.trans (spares_change _ _)).trans (spares_finish _ run _)
      · exact harrived.trans (spares_follow _ r run)

/-! ### A run -/

/-- What a run does about its pivot block in a step. When it hands over it forgets the kept one. -/
def pursuit (s : Synchronizer) (r : Replies) (run : Nat) (event : Event) : List Call :=
  match s.runs[run]? with
  | some (.catchingUp downloader arming stage) =>
    match s.catchUps[downloader]? with
    | some c => c.pursuit r stage event ++
        match (c.resume r s.book arming stage event).turn with
        | .ended (.ok _) => if s.isCurrent run then [.deletePivot] else []
        | _ => []
    | none => []
  | _ => []

/-- What a run that catches up does about its pivot block in a step. -/
theorem pursuit_of_catchingUp {downloader arming : Nat} {stage : CatchUp.Stage} {c : CatchUp}
    (hrun : s.runs[run]? = some (.catchingUp downloader arming stage))
    (hc : s.catchUps[downloader]? = some c) (r : Replies) (event : Event) :
    s.pursuit r run event = c.pursuit r stage event ++
      match (c.resume r s.book arming stage event).turn with
      | .ended (.ok _) => if s.isCurrent run then [.deletePivot] else []
      | _ => [] := by
  unfold pursuit
  rw [hrun]
  dsimp only
  rw [hc]

/-- The settings of the downloaders for catching up. -/
def settings (s : Synchronizer) : List CatchUp.Settings := s.catchUps.map CatchUp.settings

/-- A downloader has its settings. -/
theorem settings_of_catchUps {downloader : Nat} {c : CatchUp}
    (hc : s.catchUps[downloader]? = some c) : s.settings[downloader]? = some c.settings := by
  unfold settings
  rw [List.getElem?_map, hc]
  rfl

/-- To change a downloader but for its settings does not touch the settings. -/
theorem map_settings_set {catchUps : List CatchUp} {downloader : Nat} {c c' : CatchUp}
    (hc : catchUps[downloader]? = some c) (h : c'.settings = c.settings) :
    (catchUps.set downloader c').map CatchUp.settings = catchUps.map CatchUp.settings := by
  obtain ⟨hlt, rfl⟩ := List.getElem?_eq_some_iff.mp hc
  rw [List.map_set, h, ← List.getElem_map CatchUp.settings (h := by simpa using hlt),
    List.set_getElem_self]

/-- What a step does about pivot blocks and to the settings. -/
theorem afterCatchUp_account {r : Replies} {downloader arming : Nat} {stage : CatchUp.Stage}
    {c : CatchUp} (hc : s.catchUps[downloader]? = some c) (event : Event) :
    let o := c.resume r s.book arming stage event
    (s.afterCatchUp r run downloader arming o).settings = s.settings ∧
      (s.afterCatchUp r run downloader arming o).book.only Call.concernsPivot =
        s.book.only Call.concernsPivot ++ (c.pursuit r stage event ++
          match o.turn with
          | .ended (.ok _) => if s.isCurrent run then [.deletePivot] else []
          | _ => []) := by
  intro o
  have hsettings := map_settings_set hc (c.settings_resume r s.book arming stage event)
  have hcalls := c.pivots_resume r s.book arming stage event
  change (s.catchUps.set downloader o.catchUp).map _ = _ at hsettings
  change o.book.only _ = _ at hcalls
  generalize o = o' at hsettings hcalls
  have hspared : ∀ {t}, Spares { s with
      catchUps := s.catchUps.set downloader o'.catchUp, book := o'.book } t →
      t.settings = s.settings ∧ t.book.only Call.concernsPivot =
        s.book.only Call.concernsPivot ++ c.pursuit r stage event := fun hspares => by
    refine ⟨?_, hspares.calls.trans hcalls⟩
    unfold settings
    rw [hspares.catchUps]
    exact hsettings
  unfold afterCatchUp
  dsimp only
  cases o'.turn with
  | waiting stage' =>
    rw [List.append_nil]
    exact hspared (spares_setRun _ run _)
  | panicked =>
    rw [List.append_nil]
    exact hspared (spares_setRun _ run _)
  | ended result =>
    have hfinished : ∀ result, _ := fun result => hspared (spares_finish _ run result)
    dsimp only
    cases hcurrent : s.isCurrent run with
    | false =>
      rw [if_neg (by exact Bool.eq_false_iff.mp hcurrent)]
      cases result with
      | ok pivot => exact ⟨(hfinished _).1, (hfinished _).2.trans (by simp)⟩
      | error e => exact ⟨(hfinished _).1, (hfinished _).2.trans (by simp)⟩
    | true =>
      rw [if_pos (by exact hcurrent)]
      cases result with
      | error e => exact ⟨(hfinished _).1, (hfinished _).2.trans (by simp)⟩
      | ok pivot =>
        have hspares := spares_handOver { s with
          catchUps := s.catchUps.set downloader o'.catchUp, book := o'.book } r run pivot
        refine ⟨?_, hspares.calls.trans ?_⟩
        · unfold settings
          rw [hspares.catchUps]
          exact hsettings
        · rw [← List.append_assoc, ← hcalls]
          exact o'.book.only_call_of rfl

/-- What a step does about pivot blocks, and to the settings. -/
theorem resume_account (s : Synchronizer) (r : Replies) (run : Nat) (event : Event) :
    (s.resume r run event).settings = s.settings ∧
      (s.resume r run event).book.only Call.concernsPivot =
        s.book.only Call.concernsPivot ++ s.pursuit r run event := by
  have hspared : ∀ {t}, s.Spares t → t.settings = s.settings ∧
      t.book.only Call.concernsPivot = s.book.only Call.concernsPivot ++ [] := fun hspares =>
    ⟨congrArg (List.map CatchUp.settings) hspares.catchUps,
      hspares.calls.trans (List.append_nil _).symm⟩
  unfold resume pursuit
  cases hrun : s.runs[run]? with
  | none => exact hspared (.refl s)
  | some x =>
    cases x with
    | fresh =>
      dsimp only
      split
      · exact hspared (((s.spares_change .initialDone).trans (spares_enableFallback _ r)).trans
          (spares_follow _ r run))
      · exact hspared (.refl s)
    | catchingUp downloader arming stage =>
      dsimp only
      cases hc : s.catchUps[downloader]? with
      | none => exact hspared (.refl s)
      | some c => exact afterCatchUp_account hc event
    | following arming stage =>
      dsimp only
      split
      next f _ => exact hspared (s.spares_afterFullSync r run arming (f.pivots_resume r _ _ _ _))
      · exact hspared (.refl s)
    | ended result => exact hspared (.refl s)
    | panicked => exact hspared (.refl s)

/-- **What a step does about pivot blocks.** -/
theorem pursuit_resume (s : Synchronizer) (r : Replies) (run : Nat) (event : Event) :
    (s.resume r run event).book.only Call.concernsPivot =
      s.book.only Call.concernsPivot ++ s.pursuit r run event :=
  (s.resume_account r run event).2

/-! ### The downloaders in a history -/

section downloaders

variable {α : Type} {g : CatchUp → α}

/-- What a change of the newest downloader does not touch is the same of all downloaders. -/
theorem map_mapCatchUp (s : Synchronizer) {f : CatchUp → CatchUp} (h : ∀ c, g (f c) = g c) :
    (s.mapCatchUp f).catchUps.map g = s.catchUps.map g := by
  apply List.ext_getElem?
  intro i
  simp only [mapCatchUp, List.getElem?_map, List.getElem?_modify]
  cases s.catchUps[i]? with
  | none => rfl
  | some c =>
    simp only [Option.map_some, Option.map_eq_map]
    split <;> simp [h]

/-- To stop touches nothing but the signals of the downloaders. -/
theorem map_catchUps_stop (s : Synchronizer) (r : Replies) (h : ∀ c : CatchUp, g c.stop = g c) :
    (s.stop r).catchUps.map g = s.catchUps.map g := by
  cases hrunning : s.running with
  | false => rw [stop_of_not_running hrunning]
  | true =>
    rw [stop_of_running hrunning, callIf_eq, callIf_eq]
    exact s.map_mapCatchUp h

/-- To start touches nothing but the signals of the downloaders. -/
theorem map_catchUps_start {r : Replies} (ht : s.start r = .ok t)
    (h : ∀ c : CatchUp, g c.start = g c) : t.catchUps.map g = s.catchUps.map g := by
  cases hrunning : s.running with
  | false =>
    rw [start_of_not_running hrunning] at ht
    rw [← Except.ok.inj ht, callIf_eq]
    exact s.map_mapCatchUp h
  | true => rw [start_of_running hrunning] at ht; cases ht

/-- To start over adds a downloader like the newest one. -/
theorem map_catchUps_resync (s : Synchronizer) (r r' : Replies)
    (hstop : ∀ c : CatchUp, g c.stop = g c) (hstart : ∀ c : CatchUp, g c.start = g c) :
    (s.resync r r').2.catchUps.map g =
      s.catchUps.map g ++ ((s.stop r).catchUp?.map fun c => g c.anew).toList := by
  rw [map_catchUps_start (s.start_discarded r r') hstart, ← s.map_catchUps_stop r hstop]
  unfold discarded
  rw [callIf_eq]
  generalize s.stop r = t
  unfold catchUp?
  dsimp only [change]
  rw [List.map_append]
  cases t.catchUps.getLast? <;> rfl

end downloaders

/-- To start over adds a downloader like the newest one that leaves the kept pivot block aside. -/
theorem settings_resync (s : Synchronizer) (r r' : Replies) :
    (s.resync r r').2.settings =
      s.settings ++ (s.settings.getLast?.map fun last => { last with resync := true }).toList := by
  have hstopped : (s.stop r).catchUps.map CatchUp.settings = s.settings :=
    s.map_catchUps_stop r fun _ => rfl
  refine (s.map_catchUps_resync r r' (fun _ => rfl) fun _ => rfl).trans ?_
  rw [← hstopped, List.getLast?_map, hstopped]
  unfold settings catchUp?
  cases (s.stop r).catchUps.getLast? <;> rfl

end Synchronizer

/-- A synchronizer starts over. -/
def Act.startsOver : Act → Bool
  | .resync .. => true
  | _ => false

namespace Synchronizer

variable {s t : Synchronizer} {run : Nat} {a : Act}

/-- **Nothing but to start over touches the settings.** -/
theorem settings_act (s : Synchronizer) (ha : a.startsOver = false) :
    (s.act a).settings = s.settings := by
  cases a with
  | start r =>
    dsimp only [act]
    split
    next t hstart => exact map_catchUps_start hstart fun _ => rfl
    · rfl
  | stop r => exact s.map_catchUps_stop r fun _ => rfl
  | resync r r' => cases ha
  | step r run event => exact (s.resume_account r run event).1
  | announce state =>
    dsimp only [act, announce]
    rw [callIf_eq, callIf_eq]
    rfl
  | operate op => rfl

/-- Whatever happens, a downloader keeps its settings. -/
theorem settings_prefix_act (s : Synchronizer) (a : Act) : s.settings <+: (s.act a).settings := by
  cases ha : a.startsOver with
  | false => exact ⟨[], by rw [List.append_nil, s.settings_act ha]⟩
  | true =>
    cases a with
    | resync r r' =>
      rw [show (s.act (.resync r r')).settings = _ from s.settings_resync r r']
      exact List.prefix_append ..
    | _ => cases ha

/-- **Whatever happens, a downloader stays there, with its settings.** -/
theorem exists_catchUp_act {downloader : Nat} {c : CatchUp}
    (hc : s.catchUps[downloader]? = some c) (a : Act) :
    ∃ c', (s.act a).catchUps[downloader]? = some c' ∧ c'.settings = c.settings := by
  obtain ⟨new, hnew⟩ := s.settings_prefix_act a
  have hsettings := settings_of_catchUps hc
  have hkept : (s.act a).settings[downloader]? = some c.settings := by
    rw [← hnew, List.getElem?_append_left (List.getElem?_eq_some_iff.mp hsettings).1, hsettings]
  unfold settings at hkept
  rw [List.getElem?_map] at hkept
  obtain ⟨c', hc', hsame⟩ := Option.map_eq_some_iff.mp hkept
  exact ⟨c', hc', hsame⟩

end Synchronizer

/-! ### Runs that have their pivot block -/

/-- A run has a pivot block and keeps to it, or it is past catching up. -/
def Run.KeepsTo (pivot : SealedHeader) : Run → Prop
  | .fresh => False
  | .catchingUp _ _ .fresh => False
  | .catchingUp _ _ .selecting => False
  | .catchingUp _ _ (.downloading p _ _) => p = pivot
  | _ => True

/-- A run that is past catching up looks for no pivot block. -/
theorem Run.IsPast.keepsTo {x : Run} (h : x.IsPast) (pivot : SealedHeader) : x.KeepsTo pivot := by
  cases x with
  | fresh => exact h.elim
  | catchingUp _ _ _ => exact h.elim
  | _ => trivial

namespace Synchronizer

variable {s t : Synchronizer} {run : Nat} {pivot : SealedHeader} {a : Act}

/-- No step makes a run look for another pivot block. -/
theorem Becomes.keepsTo {r : Replies} {event : Event} {x x' : Run}
    (h : Becomes s r run event x x') (hx : x.KeepsTo pivot) : x'.KeepsTo pivot := by
  cases h with
  | stays => exact hx
  | begins => exact hx.elim
  | @waits _ _ stage stage' _ _ hturn =>
    cases stage with
    | fresh => exact hx.elim
    | selecting => exact hx.elim
    | downloading p chainDone stateDone =>
      obtain ⟨_, _, rfl⟩ := CatchUp.downloading_of_downloading hturn
      exact hx
  | breaks => trivial
  | completes _ _ _ hpast => exact hpast.keepsTo pivot
  | fails => trivial
  | goes => trivial
  | follows hpast => exact hpast.keepsTo pivot

/-- The run of a number keeps to a pivot block. -/
def KeepsTo (s : Synchronizer) (run : Nat) (pivot : SealedHeader) : Prop :=
  ∃ x, s.runs[run]? = some x ∧ x.KeepsTo pivot

/-- A run that keeps to a pivot block does so whatever happens. -/
theorem KeepsTo.act (h : s.KeepsTo run pivot) (a : Act) : (s.act a).KeepsTo run pivot := by
  obtain ⟨x, hx, hkeeps⟩ := h
  obtain ⟨x', hx', rfl | ⟨r, event, -, hbecomes⟩⟩ := exists_run_act hx a
  · exact ⟨x', hx', hkeeps⟩
  · exact ⟨x', hx', hbecomes.keepsTo hkeeps⟩

/-- **A run that keeps to a pivot block does so in every history.** -/
theorem KeepsTo.after (h : s.KeepsTo run pivot) (rest : List Act) :
    (s.after rest).KeepsTo run pivot :=
  after_induction (fun t => t.KeepsTo run pivot) (fun _ => True) h (fun _ a ht _ => ht.act a)
    fun _ _ => trivial

/-- All that a run which keeps to its pivot block still does about pivot blocks is to forget the
kept one. -/
theorem KeepsTo.eq_deletePivot (h : s.KeepsTo run pivot) {r : Replies} {event : Event} {c : Call}
    (hc : c ∈ s.pursuit r run event) : c = .deletePivot := by
  obtain ⟨x, hx, hkeeps⟩ := h
  unfold pursuit at hc
  rw [hx] at hc
  cases x with
  | catchingUp downloader arming stage =>
    cases stage with
    | fresh => exact hkeeps.elim
    | selecting => exact hkeeps.elim
    | downloading p chainDone stateDone =>
      dsimp only [CatchUp.pursuit] at hc
      split at hc
      · rw [List.nil_append] at hc
        split at hc
        · split at hc
          · exact List.mem_singleton.mp hc
          · cases hc
        · cases hc
      · cases hc
  | _ => cases hc

/-- A run that keeps to a pivot block hands over with that one. -/
theorem KeepsTo.eq_of_completes (h : s.KeepsTo run pivot) {r : Replies} {event : Event}
    {p : SealedHeader} (hcompletes : Completes s r run event p) : p = pivot := by
  obtain ⟨x, hx, hkeeps⟩ := h
  obtain ⟨-, downloader, arming, stage, c, hrun, -, hturn⟩ := hcompletes
  obtain rfl := Option.some.inj (hx.symm.trans hrun)
  cases CatchUp.receives_of_ended hturn with
  | chain => exact hkeeps
  | state => exact hkeeps

end Synchronizer

end ExecutionNode.Sync
