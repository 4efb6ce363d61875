import ExecutionNode.Proofs.Sync.Course

/-!
# What the downloads do in a step

Both downloads, the catch-up and full sync, are driven by runs, and a step of one says three
things: what it did, whether its run still listens to the stop signal, and where it left its run.

* What it did is routine (`CatchUp.extends_resume`, `FullSync.extends_resume`): it neither switches
  anything on or off nor hands the node over.
* Its run listens to the stop signal exactly while it waits (`CatchUp.signal_resume`,
  `FullSync.signal_resume`).
* A catch-up ends well only once it received the chain and the world state of its pivot block
  (`CatchUp.downloading_of_waiting`, `CatchUp.receives_of_ended`), and as stopped only if its signal
  went off or a collaborator says so (`CatchUp.orderly_resume`).
-/

namespace ExecutionNode.Sync

/-- The calls that a download makes at its work. -/
def Call.isRoutine : Call → Bool
  | notify _ => true
  | change (.best _) => true
  | change (.localHead _) => true
  | selectPivot => true
  | loadPivot => true
  | savePivot _ => true
  | importToPivot .. => true
  | downloadState .. => true
  | importBatch => true
  | consultTermination _ => true
  | _ => false

/-- To prepare is routine. -/
theorem Call.isRoutine_of_prepares {c : Call} (h : c.prepares = true) : c.isRoutine = true := by
  cases c with
  | change c =>
    cases c with
    | best _ => rfl
    | _ => cases h
  | selectPivot => rfl
  | loadPivot => rfl
  | savePivot _ => rfl
  | importToPivot _ _ => rfl
  | downloadState _ _ => rfl
  | _ => cases h

/-- A turn at which a run neither broke down nor ended as stopped. -/
def Turn.Orderly {σ α : Type} : Turn σ α → Prop
  | .waiting _ => True
  | .ended (.ok _) => True
  | .ended (.error e) => e ≠ .stopped
  | .panicked => False

/-! ### Routine work -/

namespace Logbook

/-- A logbook was continued with calls of a kind and with changes of the progress, each with its
notices. -/
inductive Extends (p : Call → Bool) (b : Logbook) : Logbook → Prop where
  /-- Nothing was done. -/
  | refl : Extends p b b
  /-- A call was made that does not change the progress. -/
  | call {b' : Logbook} (h : Extends p b b') {c : Call} (hc : p c = true)
      (hchange : c.change? = none) : Extends p b (b'.call c)
  /-- The progress was changed. -/
  | change {b' : Logbook} (h : Extends p b b') {c : Progress.Change}
      (hc : p (.change c) = true) : Extends p b (b'.change c)

/-- Only routine calls came in addition. -/
def Grows (b b' : Logbook) : Prop :=
  ∃ new, b'.calls = b.calls ++ new ∧ ∀ c ∈ new, c.isRoutine = true

variable {p : Call → Bool} {b b' b'' : Logbook}

/-- What was continued may be continued. -/
theorem Extends.trans (h : Extends p b b') (h' : Extends p b' b'') : Extends p b b'' := by
  induction h' with
  | refl => exact h
  | call _ hc hchange ih => exact ih.call hc hchange
  | change _ hc ih => exact ih.change hc

/-- Calls of a kind are calls of a wider one. -/
theorem Extends.mono {q : Call → Bool} (h : Extends p b b') (hpq : ∀ c, p c = true → q c = true) :
    Extends q b b' := by
  induction h with
  | refl => exact .refl
  | call _ hc hchange ih => exact ih.call (hpq _ hc) hchange
  | change _ hc ih => exact ih.change (hpq _ hc)

/-- Calls of the kind may be made in a row. -/
theorem Extends.make (h : Extends p b b') {calls : List Call} (hcalls : ∀ c ∈ calls, p c = true) :
    Extends p b (b'.make calls) := by
  induction calls generalizing b' with
  | nil => exact h
  | cons c calls ih =>
    obtain ⟨hc, hcalls⟩ := List.forall_mem_cons.mp hcalls
    refine ih ?_ hcalls
    cases c with
    | change c => exact h.change hc
    | _ => exact h.call hc rfl

/-- A change is one call, and notices. -/
theorem calls_change (b : Logbook) (c : Progress.Change) :
    ∃ notices : List Notice, (b.change c).calls = b.calls ++ .change c :: notices.map .notify :=
  ⟨_, List.append_assoc _ [_] _⟩

/-- What was called stays called, and what came in addition is of the kind, or a notice. -/
theorem Extends.exists_new (h : Extends p b b') :
    ∃ new, b'.calls = b.calls ++ new ∧ ∀ c ∈ new, p c = true ∨ ∃ n, c = .notify n := by
  induction h with
  | refl => exact ⟨[], (List.append_nil _).symm, nofun⟩
  | @call b' _ c hc _ ih =>
    obtain ⟨new, hcalls, hnew⟩ := ih
    refine ⟨new ++ [c], ?_, ?_⟩
    · rw [← List.append_assoc, ← hcalls]
      rfl
    · rw [List.forall_mem_append]
      exact ⟨hnew, List.forall_mem_singleton.mpr (.inl hc)⟩
  | @change b' _ c hc ih =>
    obtain ⟨new, hcalls, hnew⟩ := ih
    obtain ⟨notices, hchange⟩ := b'.calls_change c
    refine ⟨new ++ .change c :: notices.map .notify, ?_, ?_⟩
    · rw [hchange, hcalls, List.append_assoc]
    · rw [List.forall_mem_append, List.forall_mem_cons]
      exact ⟨hnew, .inl hc, List.forall_mem_map.mpr fun n _ => .inr ⟨n, rfl⟩⟩

/-- What is made in a row comes in addition, with the notices that it gives. -/
theorem exists_new_make (b : Logbook) (calls : List Call) :
    ∃ new, (b.make calls).calls = b.calls ++ new ∧
      (∀ c ∈ new, c ∈ calls ∨ ∃ n, c = .notify n) ∧
      ∀ p : Call → Bool, (∀ n, p (.notify n) = false) → new.filter p = calls.filter p := by
  have hextends : b.Extends (fun c => decide (c ∈ calls)) (b.make calls) :=
    .make .refl fun c hc => decide_eq_true hc
  obtain ⟨new, hnew, hkind⟩ := hextends.exists_new
  refine ⟨new, hnew, fun c hc => (hkind c hc).imp_left of_decide_eq_true, fun p hp => ?_⟩
  have honly := b.only_make hp calls
  unfold only at honly
  rw [hnew, List.filter_append] at honly
  exact List.append_cancel_left honly

/-- A logbook that was continued with routine calls has only routine calls in addition. -/
theorem Extends.grows (h : Extends Call.isRoutine b b') : b.Grows b' := by
  obtain ⟨new, hcalls, hnew⟩ := h.exists_new
  refine ⟨new, hcalls, fun c hc => ?_⟩
  rcases hnew c hc with hroutine | ⟨n, rfl⟩
  · exact hroutine
  · rfl

/-- Routine work adds no calls of another kind. -/
theorem Grows.only (h : b.Grows b') {p : Call → Bool} (hp : ∀ c, c.isRoutine = true → p c = false) :
    b'.only p = b.only p := by
  obtain ⟨new, hcalls, hnew⟩ := h
  have hnone : new.filter p = [] := by
    rw [List.filter_eq_nil_iff]
    intro c hc
    rw [hp c (hnew c hc)]
    exact Bool.false_ne_true
  rw [Logbook.only, hcalls, List.filter_append, hnone, List.append_nil, Logbook.only]

end Logbook

namespace CatchUp

variable {c : CatchUp} {r : Replies} {b : Logbook} {best : UInt64} {arming : Nat} {stage : Stage}
  {event : Event} {calls : List Call} {turn : Turn Stage SealedHeader}

/-- What a step does is routine. -/
theorem Course.isRoutine (h : c.Course r best arming stage event calls turn) :
    ∀ call ∈ calls, call.isRoutine = true := by
  obtain ⟨hprepares, -⟩ | ⟨pivot, -, rfl, -⟩ := h.prepares_or_completes
  · exact fun call hcall => Call.isRoutine_of_prepares (hprepares call hcall)
  · exact List.forall_mem_singleton.mpr rfl

variable (c r b)

/-- **A step of a catch-up is routine.** -/
theorem extends_resume (arming : Nat) (stage : Stage) (event : Event) :
    b.Extends Call.isRoutine (c.resume r b arming stage event).book := by
  obtain ⟨calls, hbook, hcourse⟩ := c.course_resume r b arming stage event
  rw [hbook]
  exact .make .refl hcourse.isRoutine

/-- A step of a catch-up adds only routine calls. -/
theorem grows_resume (arming : Nat) (stage : Stage) (event : Event) :
    b.Grows (c.resume r b arming stage event).book :=
  (c.extends_resume r b arming stage event).grows

/-- **A run listens to the stop signal exactly while it waits.** -/
theorem signal_resume (arming : Nat) (stage : Stage) (event : Event) :
    (c.resume r b arming stage event).catchUp.signal =
      match (c.resume r b arming stage event).turn with
      | .waiting _ => c.signal
      | _ => c.signal.drop arming := by
  obtain ⟨pivot, hcatchUp⟩ := c.catchUp_resume r b arming stage event
  exact congrArg CatchUp.signal hcatchUp

/-! ### How a catch-up ends -/

/-- The chain up to a pivot block and the world state there were asked for. -/
def Requests (b b' : Logbook) (pivot : SealedHeader) : Prop :=
  ∃ calls start method,
    b'.calls = b.calls ++ calls ++ [.importToPivot start pivot, .downloadState pivot method]

variable {c r b}

/-- **What a run waits for** it waited for before, or it received a part of it just now, or it asked
for it just now. -/
theorem downloading_of_waiting {p : SealedHeader} {chainDone stateDone : Bool}
    (h : (c.resume r b arming stage event).turn = .waiting (.downloading p chainDone stateDone)) :
    stage = .downloading p chainDone stateDone ∨ Receives p stage event chainDone stateDone ∨
      chainDone = false ∧ stateDone = false ∧
        Requests b (c.resume r b arming stage event).book p := by
  obtain ⟨calls, hbook, hcourse⟩ := c.course_resume r b arming stage event
  rw [h] at hcourse
  cases hcourse with
  | waits => exact .inl rfl
  | unstopped => exact .inl rfl
  | @downloads _ _ _ lead =>
    obtain ⟨new, hnew, -⟩ := b.exists_new_make (lead :: publishing b.state.progress.best p)
    refine .inr (.inr ⟨rfl, rfl, new, c.startBlock, c.stateMethod, ?_⟩)
    rw [hbook, b.make_append, ← hnew]
    exact List.append_assoc _ [_] [_]
  | unanswered _ _ _ hturn => exact absurd hturn.symm (Failure.turn_ne_waiting _ _)
  | receives h => exact .inr (.inl h)

/-- **A run that caught up** received the last it waited for just now. -/
theorem receives_of_ended {p : SealedHeader}
    (h : (c.resume r b arming stage event).turn = .ended (.ok p)) :
    Receives p stage event true true := by
  obtain ⟨calls, -, hcourse⟩ := c.course_resume r b arming stage event
  obtain ⟨-, hnone⟩ | ⟨pivot, hreceives, -, hturn⟩ := hcourse.prepares_or_completes
  · exact absurd h (hnone p)
  · rw [hturn] at h
    cases h
    exact hreceives

/-- A step breaks down only if a collaborator does. -/
theorem turn_resume_ne_panicked (hr : r.Orderly) (arming : Nat) (stage : Stage) {event : Event}
    (he : event.Orderly) : (c.resume r b arming stage event).turn ≠ .panicked := by
  intro h
  obtain ⟨calls, -, hcourse⟩ := c.course_resume r b arming stage event
  rw [h] at hcourse
  cases hcourse with
  | @unanswered _ _ _ _ _ _ failure hrefused _ hturn =>
    cases failure with
    | error e => cases hturn
    | panic => exact hr.1 hrefused
  | breaks => exact he

/-- A step goes on in order if the collaborators are orderly and the stop signal did not go off. -/
theorem orderly_resume (hr : r.Orderly) {arming : Nat} (stage : Stage) {event : Event}
    (he : event.Orderly) (hsignal : c.signal.hasStopped arming = false) :
    (c.resume r b arming stage event).turn.Orderly := by
  obtain ⟨calls, -, hcourse⟩ := c.course_resume r b arming stage event
  generalize (c.resume r b arming stage event).turn = turn at hcourse
  cases hcourse with
  | stops _ h => rw [hsignal] at h; cases h
  | unread => exact RunError.noConfusion
  | unkept => exact RunError.noConfusion
  | refuses => exact RunError.noConfusion
  | @unanswered _ _ _ _ _ _ failure hrefused _ hturn =>
    subst hturn
    cases failure with
    | error e => exact fun he => hr.2 (by rw [hrefused, he])
    | panic => exact hr.1 hrefused
  | misses h =>
    cases h with
    | pivot => exact RunError.noConfusion
    | chain => exact he
    | state => exact he
  | breaks => exact he
  | _ => trivial

/-- The stop signal ends an attempt wherever it is. -/
theorem turn_resume_stopSignalled {arming : Nat} {stage : Stage}
    (hsignal : c.signal.hasStopped arming = true) :
    (c.resume r b arming stage .stopSignalled).turn = .ended (.error .stopped) := by
  unfold resume
  dsimp only
  rw [hsignal]
  rfl

end CatchUp

/-! ### Steps of full sync -/

namespace FullSync

variable (f : FullSync) (r : Replies) (b : Logbook)

/-- To ask for a batch is routine. -/
theorem extends_ask : b.Extends Call.isRoutine (f.ask r b).book := by
  dsimp only [ask]
  split
  · exact .call .refl rfl rfl
  · exact .call (.call .refl rfl rfl) rfl rfl

theorem extends_advance (stage : Stage) (event : Event) :
    b.Extends Call.isRoutine (f.advance r b stage event).book := by
  unfold advance
  split
  · exact f.extends_ask r b
  · exact .trans (.change .refl rfl) (f.extends_ask r _)
  · exact .refl
  · exact .refl
  · exact .refl
  · exact f.extends_ask r b
  · exact .refl

/-- What a step comes to before a run that no longer waits stops to listen. -/
def work (arming : Nat) (stage : Stage) (event : Event) : Outcome :=
  match event with
  | .stopSignalled =>
    if f.signal.hasStopped arming then ⟨f, b, .ended (.ok ())⟩ else ⟨f, b, .waiting stage⟩
  | _ => f.advance r b stage event

/-- A run that no longer waits stops to listen. -/
theorem resume_eq_work (arming : Nat) (stage : Stage) (event : Event) :
    f.resume r b arming stage event =
      match (f.work r b arming stage event).turn with
      | .waiting _ => f.work r b arming stage event
      | _ => { f.work r b arming stage event with
          fullSync := { (f.work r b arming stage event).fullSync with
            signal := (f.work r b arming stage event).fullSync.signal.drop arming } } := rfl

/-- A step leaves its run where the work left it. -/
theorem turn_resume (arming : Nat) (stage : Stage) (event : Event) :
    (f.resume r b arming stage event).turn = (f.work r b arming stage event).turn := by
  rw [resume_eq_work]
  split <;> rfl

/-- All that a step does is the work. -/
theorem book_resume (arming : Nat) (stage : Stage) (event : Event) :
    (f.resume r b arming stage event).book = (f.work r b arming stage event).book := by
  rw [resume_eq_work]
  split <;> rfl

/-- **A step of full sync is routine.** -/
theorem extends_resume (arming : Nat) (stage : Stage) (event : Event) :
    b.Extends Call.isRoutine (f.resume r b arming stage event).book := by
  rw [book_resume]
  unfold work
  split
  · split
    · exact .refl
    · exact .refl
  · exact f.extends_advance r b stage event

/-- A step of full sync adds only routine calls. -/
theorem grows_resume (arming : Nat) (stage : Stage) (event : Event) :
    b.Grows (f.resume r b arming stage event).book :=
  (f.extends_resume r b arming stage event).grows

/-- The work does not touch the downloader. -/
theorem fullSync_advance (stage : Stage) (event : Event) :
    (f.advance r b stage event).fullSync = f := by
  have hask : ∀ b, (f.ask r b).fullSync = f := by
    intro b
    dsimp only [ask]
    split <;> rfl
  unfold advance
  split
  · exact hask b
  · exact hask _
  · rfl
  · rfl
  · rfl
  · exact hask b
  · rfl

/-- **A step leaves the settings as they are, and its run listens to the stop signal exactly while
it waits.** -/
theorem fullSync_resume (arming : Nat) (stage : Stage) (event : Event) :
    (f.resume r b arming stage event).fullSync =
      { f with
        signal :=
          match (f.resume r b arming stage event).turn with
          | .waiting _ => f.signal
          | _ => f.signal.drop arming } := by
  have hwork : (f.work r b arming stage event).fullSync = f := by
    unfold work
    split
    · split <;> rfl
    · exact f.fullSync_advance r b stage event
  rw [turn_resume, resume_eq_work, hwork]
  split
  · exact hwork
  · rfl

/-- **A run listens to the stop signal exactly while it waits.** -/
theorem signal_resume (arming : Nat) (stage : Stage) (event : Event) :
    (f.resume r b arming stage event).fullSync.signal =
      match (f.resume r b arming stage event).turn with
      | .waiting _ => f.signal
      | _ => f.signal.drop arming :=
  congrArg FullSync.signal (f.fullSync_resume r b arming stage event)

variable {f r b}

/-- Full sync goes on in order if the collaborators are orderly. -/
theorem orderly_resume (arming : Nat) (stage : Stage) {event : Event} (he : event.Orderly) :
    (f.resume r b arming stage event).turn.Orderly := by
  have hask : ∀ b, (f.ask r b).turn.Orderly := by
    intro b
    dsimp only [ask]
    split <;> trivial
  rw [turn_resume]
  unfold work
  split
  · split <;> trivial
  · unfold advance
    split
    · exact hask b
    · exact hask _
    · trivial
    · exact he
    · exact he
    · exact hask b
    · trivial

end FullSync

end ExecutionNode.Sync
