import ExecutionNode.Simulation.Subjects

/-!
# Scenarios

In a scenario something is done to the subject of a scene step by step: runs are started and
stopped, the sync state is changed, what collaborators will answer is changed, and time passes.
After each step all runs go on until they wait.  Some runs are followed, which means that their
end is reported.
-/

namespace ExecutionNode.Simulation

open Sync

/-- How a run ended. -/
inductive RunEnd where
  /-- With nothing left to do. -/
  | completed
  /-- At its pivot block. -/
  | reached (pivot : SealedHeader)
  /-- With an error. -/
  | failed (e : RunError)
  /-- It broke down. -/
  | brokeDown

/-- How a run ended, if it did. -/
def RunEnd.ofTurn? {σ α : Type} (completed : α → RunEnd) : Turn σ α → Option RunEnd
  | .waiting _ => none
  | .ended (.ok a) => some (completed a)
  | .ended (.error e) => some (.failed e)
  | .panicked => some .brokeDown

/-- What a scenario asks of its subject. -/
class Subject (σ : Type) extends HasRuns σ where
  /-- The sync state and the calls. -/
  book : σ → Logbook
  /-- The subject with another logbook. -/
  withBook : Logbook → σ → σ
  /-- How the runs ended. -/
  ends : σ → List (Option RunEnd)
  /-- Starts a run, which may be one that nobody waits for. -/
  start : Replies → Bool → σ → Except LifecycleError σ
  /-- Stops the active run. -/
  stop : Replies → σ → σ

instance : Subject CatchUps where
  book := CatchUps.book
  withBook book s := { s with book }
  ends s := s.runs.map fun run => RunEnd.ofTurn? .reached run.2
  start _ awaited s := .ok (if awaited then s.start else s.startInVain)
  stop _ s := { s with catchUp := s.catchUp.stop }

instance : Subject FullSyncs where
  book := FullSyncs.book
  withBook book s := { s with book }
  ends s := s.runs.map fun run => RunEnd.ofTurn? (fun _ => .completed) run.2
  start _ awaited s := .ok (if awaited then s.start else s.startInVain)
  stop _ s := { s with fullSync := s.fullSync.stop }

/-- How a run of a synchronizer ended. One that broke down is reported as an error. -/
def RunEnd.ofRun? : Run → Option RunEnd
  | .ended (.ok ()) => some .completed
  | .ended (.error e) => some (.failed e)
  | .panicked => some (.failed (.task "panicked"))
  | _ => none

instance : Subject Synchronizer where
  book := Synchronizer.book
  withBook book s := { s with book }
  ends s := s.runs.map RunEnd.ofRun?
  start replies _ s := s.start replies
  stop replies s := s.stop replies

/-- A scene in the course of a scenario. -/
structure Scenario (σ : Type) where
  /-- The scene. -/
  scene : Scene σ
  /-- The numbers of the runs that are followed. -/
  followed : List Nat := []
  /-- Whether the download can end at all. -/
  terminates : Bool := true

namespace Scenario

variable {σ : Type} [Subject σ] (s : Scenario σ)

/-- The subject. -/
def subject : σ := s.scene.subject

/-- The sync state. -/
def state : State := (Subject.book s.subject).state

/-- Does something to the subject. -/
def act (f : Replies → σ → σ) : Scenario σ :=
  { s with
    scene := { s.scene with subject := f s.scene.script.replies s.subject }.collect none }

/-- Performs an operation on the sync state. -/
def perform (op : Operation) : Scenario σ :=
  s.act fun _ subject => Subject.withBook ((Subject.book subject).perform op) subject

/-- Starts a run. A run that nobody waits for is not followed. -/
def start (awaited : Bool) : Except LifecycleError (Scenario σ) := do
  let run := (Subject.ends s.subject).length
  let subject ← Subject.start s.scene.script.replies awaited s.subject
  return { s with followed := if awaited then s.followed ++ [run] else s.followed }.act
    fun _ _ => subject

/-- Changes what the collaborators will answer. Where the download cannot end, it does not. -/
def withScript (script : Script) : Scenario σ :=
  let script := if s.terminates then script else { script with isOver := false, overAtEnd := false }
  { s with scene := { s.scene with script } }

/-- Lets so many milliseconds pass. -/
def pass (ms : Nat) : Scenario σ := { s with scene := s.scene.settle.advance ms }

/-- Lets all runs go on until they wait. -/
def settle : Scenario σ := { s with scene := s.scene.settle }

/-- Begins a new page of the log. -/
def turnPage : Scenario σ := { s with scene := { s.scene with log := [] } }

/-- How the followed runs ended, by their place among those. -/
def ends : List (Nat × RunEnd) :=
  let all := Subject.ends s.subject
  s.followed.zipIdx.filterMap fun (run, place) => all[run]?.join.map fun e => (place + 1, e)

/-- How those runs ended that had not ended before. -/
def newEnds (before : Scenario σ) : List (Nat × RunEnd) :=
  s.ends.filter fun e => !before.ends.any (·.1 = e.1)

end Scenario

/-- Has a synchronizer fetch the world state again, with its answer. When the new run starts, block
propagation knows that it was stopped. -/
def Scenario.resync (s : Scenario Synchronizer) : Bool × Scenario Synchronizer :=
  let stopped := s.act fun replies subject => subject.stop replies
  let resync (replies : Replies) (subject : Synchronizer) :=
    subject.resync replies stopped.scene.script.replies
  ((resync s.scene.script.replies s.subject).1,
    s.act fun replies subject => (resync replies subject).2)

end ExecutionNode.Simulation
