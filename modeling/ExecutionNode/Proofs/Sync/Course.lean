import ExecutionNode.Proofs.Sync.History

/-!
# The course of a catch-up

A step of an attempt does one of few things.  `CatchUp.Course` says once which: under what
conditions, with which calls in which order, and where the attempt is then.  Whatever else is known
of attempts follows from it by cases.

* `Logbook.make` notes calls in order; a change of the progress comes with its notices.
* `CatchUp.course_resume`: every step takes such a course.
* `CatchUp.catchUp_resume`: it leaves the settings of the downloader as they are, and its run stops
  to listen when it no longer waits.
-/

namespace ExecutionNode.Sync

/-- The change of the progress that a call is. -/
def Call.change? : Call → Option Progress.Change
  | change c => some c
  | _ => none

/-! ### Calls in order -/

namespace Logbook

/-- Makes a call; a change of the progress gives notice besides. -/
def effect (b : Logbook) : Call → Logbook
  | .change c => b.change c
  | c => b.call c

/-- Makes calls in order. -/
def make (b : Logbook) (calls : List Call) : Logbook := calls.foldl effect b

variable {p : Call → Bool} (b : Logbook)

theorem make_append (earlier later : List Call) :
    b.make (earlier ++ later) = (b.make earlier).make later :=
  List.foldl_append

/-- A call, and the notices that it gives, is one of its kind. -/
theorem only_effect (h : ∀ n, p (.notify n) = false) (c : Call) :
    (b.effect c).only p = b.only p ++ [c].filter p := by
  have hcall : (b.effect c).only p = (b.call c).only p := by
    cases c with
    | change c => exact b.only_change h c
    | _ => rfl
  rw [hcall, only, call, List.filter_append, only]

/-- Of the calls that are made those are of a kind that are, without the notices they give. -/
theorem only_make (h : ∀ n, p (.notify n) = false) (calls : List Call) :
    (b.make calls).only p = b.only p ++ calls.filter p := by
  induction calls generalizing b with
  | nil => exact (List.append_nil _).symm
  | cons c calls ih =>
    refine (ih (b.effect c)).trans ?_
    rw [b.only_effect h, List.append_assoc, ← List.filter_append, List.singleton_append]

/-- Calls that do not change the progress are all that is made. -/
theorem make_eq {calls : List Call} (h : ∀ c ∈ calls, c.change? = none) :
    b.make calls = { b with calls := b.calls ++ calls } := by
  induction calls generalizing b with
  | nil => rw [List.append_nil]; rfl
  | cons c calls ih =>
    obtain ⟨hc, hcalls⟩ := List.forall_mem_cons.mp h
    have heffect : b.effect c = b.call c := by
      cases c with
      | change _ => cases hc
      | _ => rfl
    refine (ih (b.effect c) hcalls).trans ?_
    rw [heffect, call, List.append_assoc]
    rfl

end Logbook

/-- The calls of an attempt that does not have all it needs. -/
def Call.prepares : Call → Bool
  | change (.best _) => true
  | selectPivot => true
  | loadPivot => true
  | savePivot _ => true
  | importToPivot .. => true
  | downloadState .. => true
  | _ => false

/-- A failure leaves nothing to wait for. -/
theorem Failure.turn_ne_waiting {σ α : Type} (failure : Failure) (stage : σ) :
    (failure.turn : Turn σ α) ≠ .waiting stage := by
  cases failure <;> exact nofun

/-- A failure is no good end. -/
theorem Failure.turn_ne_ok {σ α : Type} (failure : Failure) (a : α) :
    (failure.turn : Turn σ α) ≠ .ended (.ok a) := by
  cases failure <;> exact nofun

namespace CatchUp

/-! ### What a step can do -/

/-- By an event an attempt has a pivot block that is kept: it took up the one that was, or one was
chosen and it kept that. A call tells which. -/
inductive Acquires (c : CatchUp) (r : Replies) (pivot : SealedHeader) :
    Stage → Event → Call → Prop where
  /-- It took up the one that was kept. -/
  | takenUp (hresync : c.resync = false) (hload : r.load = .ok (some pivot)) :
      Acquires c r pivot .fresh .begun .loadPivot
  /-- It kept the one that was chosen. -/
  | chosen (hsave : r.save = .ok ()) :
      Acquires c r pivot .selecting (.selected (.ok pivot)) (.savePivot pivot)

/-- An event by which an attempt has more than before, and what it has then: the chain up to the
pivot block, and the world state there. -/
inductive Receives (pivot : SealedHeader) : Stage → Event → Bool → Bool → Prop where
  /-- The chain was imported. -/
  | chain (stateDone : Bool) :
      Receives pivot (.downloading pivot false stateDone) (.chainImported (.ok ())) true stateDone
  /-- The world state was fetched. -/
  | state (chainDone : Bool) :
      Receives pivot (.downloading pivot chainDone false) (.stateDownloaded (.ok ())) chainDone true

/-- An event by which an attempt fails that waits for what it needs, and its error. -/
inductive Misses : Stage → Event → RunError → Prop where
  /-- No pivot block was found. -/
  | pivot (e : PivotError) : Misses .selecting (.selected (.error e)) (.pivot e)
  /-- The chain was not imported. -/
  | chain (pivot : SealedHeader) (stateDone : Bool) (e : RunError) :
      Misses (.downloading pivot false stateDone) (.chainImported (.error e)) e
  /-- The world state was not fetched. -/
  | state (pivot : SealedHeader) (chainDone : Bool) (e : RunError) :
      Misses (.downloading pivot chainDone false) (.stateDownloaded (.error e)) e

/-- Whether an event matters to an attempt, at a stage of it. -/
def Stage.awaits : Stage → Event → Bool
  | .fresh, .begun => true
  | .selecting, .selected _ => true
  | .selecting, .panicked => true
  | .downloading _ false _, .chainImported _ => true
  | .downloading _ _ false, .stateDownloaded _ => true
  | .downloading .., .panicked => true
  | _, .stopSignalled => true
  | _, _ => false

/-- How a pivot block is published where that is the best height known. -/
def publishing (best : UInt64) (pivot : SealedHeader) : List Call :=
  if best < pivot.number then [.change (.best pivot.number)] else []

/-- What a step of the attempt of an arming can do, where that is the best height known: the calls
that it makes in order, and where it leaves the attempt. -/
inductive Course (c : CatchUp) (r : Replies) (best : UInt64) (arming : Nat) :
    Stage → Event → List Call → Turn Stage SealedHeader → Prop where
  /-- The event does not matter. -/
  | waits {stage : Stage} {event : Event} (h : stage.awaits event = false) :
      Course c r best arming stage event [] (.waiting stage)
  /-- The stop signal did not go off. -/
  | unstopped (stage : Stage) (h : c.signal.hasStopped arming = false) :
      Course c r best arming stage .stopSignalled [] (.waiting stage)
  /-- The attempt is stopped. -/
  | stops (stage : Stage) (h : c.signal.hasStopped arming = true) :
      Course c r best arming stage .stopSignalled [] (.ended (.error .stopped))
  /-- It leaves the kept pivot block aside. -/
  | startsOver (hresync : c.resync = true) :
      Course c r best arming .fresh .begun [.selectPivot] (.waiting .selecting)
  /-- No pivot block is kept. -/
  | findsNone (hresync : c.resync = false) (hload : r.load = .ok none) :
      Course c r best arming .fresh .begun [.loadPivot, .selectPivot] (.waiting .selecting)
  /-- The kept pivot block cannot be read. -/
  | unread (hresync : c.resync = false) {f : Fault} (hload : r.load = .error f) :
      Course c r best arming .fresh .begun [.loadPivot] (.ended (.error (.fault f)))
  /-- The pivot block that was chosen cannot be kept. -/
  | unkept (pivot : SealedHeader) {f : Fault} (hsave : r.save = .error f) :
      Course c r best arming .selecting (.selected (.ok pivot)) [.savePivot pivot]
        (.ended (.error (.fault f)))
  /-- The pivot block lies before the trusted block. -/
  | refuses {pivot : SealedHeader} {stage : Stage} {event : Event} {lead : Call}
      (h : c.Acquires r pivot stage event lead) {trusted : Checkpoint}
      (hbelow : c.checkpoint.filter (pivot.number < ·.number) = some trusted) :
      Course c r best arming stage event [lead]
        (.ended (.error (.pivotBelowCheckpoint pivot.number trusted.number)))
  /-- The chain and the world state at the pivot block are asked for. -/
  | downloads {pivot : SealedHeader} {stage : Stage} {event : Event} {lead : Call}
      (h : c.Acquires r pivot stage event lead)
      (hpassed : c.checkpoint.filter (pivot.number < ·.number) = none)
      (haccepted : r.importRefused = none) :
      Course c r best arming stage event
        (lead :: publishing best pivot ++
          [.importToPivot c.startBlock pivot, .downloadState pivot c.stateMethod])
        (.waiting (.downloading pivot false false))
  /-- The chain is asked for and refused. -/
  | unanswered {pivot : SealedHeader} {stage : Stage} {event : Event} {lead : Call}
      (h : c.Acquires r pivot stage event lead)
      (hpassed : c.checkpoint.filter (pivot.number < ·.number) = none) {failure : Failure}
      (hrefused : r.importRefused = some failure) {turn : Turn Stage SealedHeader}
      (hturn : turn = failure.turn) :
      Course c r best arming stage event
        (lead :: publishing best pivot ++ [.importToPivot c.startBlock pivot]) turn
  /-- A part of what is needed is there. -/
  | receives {pivot : SealedHeader} {stage : Stage} {event : Event} {chainDone stateDone : Bool}
      (h : Receives pivot stage event chainDone stateDone)
      (hopen : (chainDone && stateDone) = false) :
      Course c r best arming stage event [] (.waiting (.downloading pivot chainDone stateDone))
  /-- All that is needed is there. -/
  | completes {pivot : SealedHeader} {stage : Stage} {event : Event}
      (h : Receives pivot stage event true true) :
      Course c r best arming stage event [.change (.localHead pivot.number)] (.ended (.ok pivot))
  /-- What is needed cannot be had. -/
  | misses {stage : Stage} {event : Event} {e : RunError} (h : Misses stage event e) :
      Course c r best arming stage event [] (.ended (.error e))
  /-- Whoever the attempt waited for broke down. -/
  | breaks {stage : Stage} (h : stage.awaits .panicked = true) :
      Course c r best arming stage .panicked [] .panicked

variable (c : CatchUp) (r : Replies) (b : Logbook) (arming : Nat)

/-! ### What a step does -/

/-- What a step comes to before a run that no longer waits stops to listen. -/
def work (stage : Stage) (event : Event) : Outcome :=
  match event with
  | .stopSignalled => if c.signal.hasStopped arming then c.fail b .stopped else c.wait b stage
  | _ => c.advance r b stage event

/-- A run that no longer waits stops to listen. -/
theorem resume_eq_work (stage : Stage) (event : Event) :
    c.resume r b arming stage event =
      match (c.work r b arming stage event).turn with
      | .waiting _ => c.work r b arming stage event
      | _ => { c.work r b arming stage event with
          catchUp := { (c.work r b arming stage event).catchUp with
            signal := (c.work r b arming stage event).catchUp.signal.drop arming } } := rfl

/-- An outcome takes a course. -/
def Takes (stage : Stage) (event : Event) (o : Outcome) : Prop :=
  ∃ calls, o.book = b.make calls ∧
    c.Course r b.state.progress.best arming stage event calls o.turn

variable {c r b arming}

/-- An attempt that has a pivot block refuses it or downloads what is there. -/
theorem Acquires.takes {pivot : SealedHeader} {stage : Stage} {event : Event} {lead : Call}
    (h : c.Acquires r pivot stage event lead) :
    c.Takes r b arming stage event (c.adopt r (b.call lead) pivot) := by
  have hlead : b.make [lead] = b.call lead := by
    cases h <;> rfl
  have hpublish : (if (b.call lead).state.progress.best < pivot.number then
      (b.call lead).change (.best pivot.number) else b.call lead) =
        b.make (lead :: publishing b.state.progress.best pivot) := by
    rw [← List.singleton_append, b.make_append, hlead]
    unfold publishing
    show (if b.state.progress.best < pivot.number then _ else _) = _
    split <;> rfl
  unfold adopt
  cases hfilter : c.checkpoint.filter (pivot.number < ·.number) with
  | some trusted => exact ⟨_, hlead.symm, .refuses h hfilter⟩
  | none =>
    dsimp only
    cases hrefused : r.importRefused with
    | some failure =>
      refine ⟨_, ?_, .unanswered h hfilter hrefused rfl⟩
      rw [b.make_append, ← hpublish]
      rfl
    | none =>
      refine ⟨_, ?_, .downloads h hfilter hrefused⟩
      rw [b.make_append, ← hpublish]
      rfl

/-- An attempt that received something waits for the rest, if any. -/
theorem Receives.takes {pivot : SealedHeader} {stage : Stage} {event : Event}
    {chainDone stateDone : Bool} (h : Receives pivot stage event chainDone stateDone) :
    c.Takes r b arming stage event (c.receive b pivot chainDone stateDone) := by
  unfold receive
  split
  next hboth =>
    obtain ⟨rfl, rfl⟩ := (Bool.and_eq_true _ _).mp hboth
    exact ⟨_, rfl, .completes h⟩
  next hopen => exact ⟨_, rfl, .receives h ((Bool.not_eq_true _).mp hopen)⟩

/-- To begin takes a course. -/
theorem takes_begin : c.Takes r b arming .fresh .begun (c.begin r b) := by
  unfold begin
  split
  next hresync => exact ⟨_, rfl, .startsOver hresync⟩
  next hresync =>
    rw [Bool.not_eq_true] at hresync
    cases hload : r.load with
    | error f => exact ⟨_, rfl, .unread hresync hload⟩
    | ok kept =>
      cases kept with
      | none => exact ⟨_, rfl, .findsNone hresync hload⟩
      | some pivot => exact (Acquires.takenUp hresync hload).takes

/-- To keep a pivot block that was chosen takes a course. -/
theorem takes_keep (pivot : SealedHeader) :
    c.Takes r b arming .selecting (.selected (.ok pivot)) (c.keep r b pivot) := by
  unfold keep
  cases hsave : r.save with
  | error f => exact ⟨_, rfl, .unkept pivot hsave⟩
  | ok _ => exact (Acquires.chosen hsave).takes

/-- An attempt that downloads goes on with that. -/
theorem takes_downloading (pivot : SealedHeader) (chainDone stateDone : Bool) {event : Event}
    (hevent : event ≠ .stopSignalled) :
    c.Takes r b arming (.downloading pivot chainDone stateDone) event
      (c.advance r b (.downloading pivot chainDone stateDone) event) := by
  have hidle {event : Event}
      (h : (Stage.downloading pivot chainDone stateDone).awaits event = false) :
      c.Takes r b arming (.downloading pivot chainDone stateDone) event
        (c.wait b (.downloading pivot chainDone stateDone)) := ⟨_, rfl, .waits h⟩
  cases event with
  | chainImported result =>
    cases chainDone with
    | true => cases stateDone <;> exact hidle rfl
    | false =>
      cases result with
      | ok _ => exact (Receives.chain stateDone).takes
      | error e => exact ⟨_, rfl, .misses (.chain pivot stateDone e)⟩
  | stateDownloaded result =>
    cases stateDone with
    | true => cases chainDone <;> cases result <;> exact hidle rfl
    | false =>
      cases result with
      | ok _ => cases chainDone <;> exact (Receives.state _).takes
      | error e => cases chainDone <;> exact ⟨_, rfl, .misses (.state pivot _ e)⟩
  | panicked => cases chainDone <;> cases stateDone <;> exact ⟨_, rfl, .breaks rfl⟩
  | stopSignalled => exact absurd rfl hevent
  | _ => cases chainDone <;> cases stateDone <;> exact hidle rfl

/-- To go on takes a course, at any stage. -/
theorem takes_advance (stage : Stage) {event : Event} (hevent : event ≠ .stopSignalled) :
    c.Takes r b arming stage event (c.advance r b stage event) := by
  cases stage with
  | fresh =>
    cases event with
    | begun => exact takes_begin
    | stopSignalled => exact absurd rfl hevent
    | _ => exact ⟨_, rfl, .waits rfl⟩
  | selecting =>
    cases event with
    | selected result =>
      cases result with
      | ok pivot => exact takes_keep pivot
      | error e => exact ⟨_, rfl, .misses (.pivot e)⟩
    | panicked => exact ⟨_, rfl, .breaks rfl⟩
    | stopSignalled => exact absurd rfl hevent
    | _ => exact ⟨_, rfl, .waits rfl⟩
  | downloading pivot chainDone stateDone =>
    exact takes_downloading pivot chainDone stateDone hevent

variable (c r b arming)

/-- **Every step takes a course.** -/
theorem course_resume (stage : Stage) (event : Event) :
    c.Takes r b arming stage event (c.resume r b arming stage event) := by
  have hwork : c.Takes r b arming stage event (c.work r b arming stage event) := by
    unfold work
    split
    · split
      next hstopped => exact ⟨_, rfl, .stops stage hstopped⟩
      next hstopped => exact ⟨_, rfl, .unstopped stage ((Bool.not_eq_true _).mp hstopped)⟩
    next hevent => exact takes_advance stage hevent
  rw [resume_eq_work]
  split
  · exact hwork
  · exact hwork

variable {c r b arming} {best : UInt64} {stage : Stage} {event : Event} {calls : List Call}
  {turn : Turn Stage SealedHeader} {pivot : SealedHeader} {lead : Call}

/-- By an event an attempt has one pivot block at most. -/
theorem Acquires.unique {p : SealedHeader} {first : Call} (h : c.Acquires r pivot stage event lead)
    (h' : c.Acquires r p stage event first) : p = pivot ∧ first = lead := by
  cases h with
  | takenUp _ hload =>
    cases h' with
    | takenUp _ hload' =>
      rw [hload] at hload'
      cases hload'
      exact ⟨rfl, rfl⟩
  | chosen =>
    cases h'
    exact ⟨rfl, rfl⟩

/-- **An attempt that has a pivot block** refuses it, or asks for what is there. -/
theorem Course.of_acquires (hcourse : c.Course r best arming stage event calls turn)
    (h : c.Acquires r pivot stage event lead) :
    (∃ trusted, c.checkpoint.filter (pivot.number < ·.number) = some trusted ∧ calls = [lead] ∧
      turn = .ended (.error (.pivotBelowCheckpoint pivot.number trusted.number))) ∨
    c.checkpoint.filter (pivot.number < ·.number) = none ∧
      ((r.importRefused = none ∧
        calls = lead :: publishing best pivot ++
          [.importToPivot c.startBlock pivot, .downloadState pivot c.stateMethod] ∧
        turn = .waiting (.downloading pivot false false)) ∨
      ∃ failure, r.importRefused = some failure ∧
        calls = lead :: publishing best pivot ++ [.importToPivot c.startBlock pivot] ∧
        turn = failure.turn) := by
  cases hcourse with
  | refuses h' hbelow =>
    obtain ⟨rfl, rfl⟩ := h.unique h'
    exact .inl ⟨_, hbelow, rfl, rfl⟩
  | downloads h' hpassed haccepted =>
    obtain ⟨rfl, rfl⟩ := h.unique h'
    exact .inr ⟨hpassed, .inl ⟨haccepted, rfl, rfl⟩⟩
  | unanswered h' hpassed hrefused hturn =>
    obtain ⟨rfl, rfl⟩ := h.unique h'
    exact .inr ⟨hpassed, .inr ⟨_, hrefused, rfl, hturn⟩⟩
  | waits hidle => cases h <;> cases hidle
  | startsOver hresync => cases h with | takenUp h' => rw [hresync] at h'; cases h'
  | findsNone _ hload => cases h with | takenUp _ h' => rw [hload] at h'; cases h'
  | unread _ hload => cases h with | takenUp _ h' => rw [hload] at h'; cases h'
  | unkept _ hsave => cases h with | chosen h' => rw [hsave] at h'; cases h'
  | receives h' => cases h' <;> cases h
  | completes h' => cases h' <;> cases h
  | misses h' => cases h' <;> cases h
  | _ => cases h

/-- To publish a pivot block is a change of the best height at most. -/
theorem prepares_publishing (best : UInt64) (pivot : SealedHeader) :
    ∀ call ∈ publishing best pivot, call.prepares = true := by
  unfold publishing
  split
  · exact List.all_eq_true.mp rfl
  · nofun

/-- An attempt has its pivot block by a call of its own. -/
theorem Acquires.prepares (h : c.Acquires r pivot stage event lead) : lead.prepares = true := by
  cases h <;> rfl

/-- **An attempt prepares until it has all that it needs**, and then sets the local head once. -/
theorem Course.prepares_or_completes (h : c.Course r best arming stage event calls turn) :
    ((∀ call ∈ calls, call.prepares = true) ∧ ∀ pivot, turn ≠ .ended (.ok pivot)) ∨
      ∃ pivot, Receives pivot stage event true true ∧
        calls = [.change (.localHead pivot.number)] ∧ turn = .ended (.ok pivot) := by
  cases h with
  | refuses h => exact .inl ⟨List.forall_mem_singleton.mpr h.prepares, nofun⟩
  | downloads h =>
    refine .inl ⟨?_, nofun⟩
    rw [List.forall_mem_append, List.forall_mem_cons]
    exact ⟨⟨h.prepares, prepares_publishing _ _⟩, List.all_eq_true.mp rfl⟩
  | unanswered h _ _ hturn =>
    refine .inl ⟨?_, fun pivot hok => Failure.turn_ne_ok _ pivot (hturn.symm.trans hok)⟩
    rw [List.forall_mem_append, List.forall_mem_cons]
    exact ⟨⟨h.prepares, prepares_publishing _ _⟩, List.all_eq_true.mp rfl⟩
  | completes h => exact .inr ⟨_, h, rfl, rfl⟩
  | _ => exact .inl ⟨List.all_eq_true.mp rfl, nofun⟩

variable (c r b arming)

/-- **A step leaves the settings as they are, and its run listens to the stop signal exactly while
it waits.** -/
theorem catchUp_resume (stage : Stage) (event : Event) :
    ∃ pivot, (c.resume r b arming stage event).catchUp =
      { c with
        pivot := pivot
        signal :=
          match (c.resume r b arming stage event).turn with
          | .waiting _ => c.signal
          | _ => c.signal.drop arming } := by
  have hadopt (b : Logbook) (pivot : SealedHeader) :
      ∃ p, (c.adopt r b pivot).catchUp = { c with pivot := p } := by
    dsimp only [adopt]
    split
    · exact ⟨_, rfl⟩
    · split <;> exact ⟨_, rfl⟩
  have hreceive (pivot : SealedHeader) (chainDone stateDone : Bool) :
      ∃ p, (c.receive b pivot chainDone stateDone).catchUp = { c with pivot := p } := by
    unfold receive
    split <;> exact ⟨_, rfl⟩
  have hwork : ∃ p, (c.work r b arming stage event).catchUp = { c with pivot := p } := by
    unfold work
    split
    · split <;> exact ⟨_, rfl⟩
    · unfold advance
      split
      · dsimp only [begin]
        split
        · exact ⟨_, rfl⟩
        · split
          · exact ⟨_, rfl⟩
          · exact hadopt _ _
          · exact ⟨_, rfl⟩
      · dsimp only [keep]
        split
        · exact ⟨_, rfl⟩
        · exact hadopt _ _
      · exact ⟨_, rfl⟩
      · exact ⟨_, rfl⟩
      · exact hreceive _ _ _
      · exact ⟨_, rfl⟩
      · exact hreceive _ _ _
      · exact ⟨_, rfl⟩
      · exact ⟨_, rfl⟩
      · exact ⟨_, rfl⟩
  obtain ⟨pivot, hpivot⟩ := hwork
  refine ⟨pivot, ?_⟩
  rw [resume_eq_work]
  generalize c.work r b arming stage event = o at hpivot
  obtain ⟨catchUp, book, turn⟩ := o
  subst hpivot
  cases turn <;> rfl

end CatchUp

end ExecutionNode.Sync
