import ExecutionNode.Sync.Collaborators
import ExecutionNode.Sync.StopSignal
import ExecutionNode.Sync.TrailingPeers

/-!
# Catching up

A catch-up brings a new node close to the head: it takes up the pivot block that an earlier
attempt kept, or has one chosen and keeps it, then imports the chain up to that block while the
world state there is fetched.  The local head moves only when both are complete.  An attempt
ends with its pivot block, with the first error, or with the stop signal.
-/

namespace ExecutionNode.Sync

/-- A downloader for attempts to catch up. -/
structure CatchUp where
  /-- The way to the head. -/
  mode : SyncMode
  /-- The trusted block at which the chain begins. -/
  checkpoint : Option Checkpoint
  /-- Whether it starts over, and so leaves the kept pivot block aside. -/
  resync : Bool
  /-- The pivot block of the latest attempt that got so far. -/
  pivot : Option SealedHeader := none
  /-- The stop signal. -/
  signal : StopSignal := {}

namespace CatchUp

/-- How far an attempt is. -/
inductive Stage where
  /-- It has not begun. -/
  | fresh
  /-- It waits for a pivot block. -/
  | selecting
  /-- It waits for the chain and the world state, except for what is there already. -/
  | downloading (pivot : SealedHeader) (chainDone stateDone : Bool)

/-- Where a step leaves a downloader and its attempt. -/
structure Outcome where
  /-- The downloader. -/
  catchUp : CatchUp
  /-- What was done. -/
  book : Logbook
  /-- The attempt. -/
  turn : Turn Stage SealedHeader

variable (c : CatchUp)

/-- How the world state is fetched. -/
def stateMethod : StateMethod := if c.mode = .fast then .nodes else .ranges

/-- Where the chain begins. -/
def startBlock : Option BlockId := c.checkpoint.map fun trusted => ⟨trusted.number, trusted.hash⟩

/-! ### Steps -/

/-- The attempt waits. -/
def wait (b : Logbook) (stage : Stage) : Outcome := ⟨c, b, .waiting stage⟩

/-- The attempt fails. -/
def fail (b : Logbook) (e : RunError) : Outcome := ⟨c, b, .ended (.error e)⟩

/-- The attempt asks for a pivot block. -/
def select (b : Logbook) : Outcome := c.wait (b.call .selectPivot) .selecting

/-- The attempt goes on with a pivot block that is kept already. One before the trusted block is
refused; otherwise it is published, and the chain and the world state are asked for. -/
def adopt (r : Replies) (b : Logbook) (pivot : SealedHeader) : Outcome :=
  match c.checkpoint.filter (pivot.number < ·.number) with
  | some trusted => c.fail b (.pivotBelowCheckpoint pivot.number trusted.number)
  | none =>
    let c := { c with pivot := some pivot }
    let b := if b.state.progress.best < pivot.number then b.change (.best pivot.number) else b
    let b := b.call (.importToPivot c.startBlock pivot)
    match r.importRefused with
    | some failure => ⟨c, b, failure.turn⟩
    | none => c.wait (b.call (.downloadState pivot c.stateMethod)) (.downloading pivot false false)

/-- The attempt begins. -/
def begin (r : Replies) (b : Logbook) : Outcome :=
  if c.resync then c.select b
  else
    let b := b.call .loadPivot
    match r.load with
    | .error f => c.fail b (.fault f)
    | .ok (some pivot) => c.adopt r b pivot
    | .ok none => c.select b

/-- The attempt keeps a pivot block that was chosen. -/
def keep (r : Replies) (b : Logbook) (pivot : SealedHeader) : Outcome :=
  let b := b.call (.savePivot pivot)
  match r.save with
  | .error f => c.fail b (.fault f)
  | .ok () => c.adopt r b pivot

/-- The attempt ends once it has both the chain and the world state. -/
def receive (b : Logbook) (pivot : SealedHeader) (chainDone stateDone : Bool) : Outcome :=
  if chainDone && stateDone then ⟨c, b.change (.localHead pivot.number), .ended (.ok pivot)⟩
  else c.wait b (.downloading pivot chainDone stateDone)

/-- The attempt goes on after what it waited for. -/
def advance (r : Replies) (b : Logbook) : Stage → Event → Outcome
  | .fresh, .begun => c.begin r b
  | .selecting, .selected (.ok pivot) => c.keep r b pivot
  | .selecting, .selected (.error e) => c.fail b (.pivot e)
  | .selecting, .panicked => ⟨c, b, .panicked⟩
  | .downloading pivot false stateDone, .chainImported (.ok ()) => c.receive b pivot true stateDone
  | .downloading _ false _, .chainImported (.error e) => c.fail b e
  | .downloading pivot chainDone false, .stateDownloaded (.ok ()) =>
    c.receive b pivot chainDone true
  | .downloading _ _ false, .stateDownloaded (.error e) => c.fail b e
  | .downloading _ _ _, .panicked => ⟨c, b, .panicked⟩
  | stage, _ => c.wait b stage

/-- A step of the attempt of an arming. The stop signal ends the attempt wherever it is; whoever
does not wait no longer listens to it. -/
def resume (r : Replies) (b : Logbook) (arming : Nat) (stage : Stage) (event : Event) : Outcome :=
  let o : Outcome :=
    match event with
    | .stopSignalled => if c.signal.hasStopped arming then c.fail b .stopped else c.wait b stage
    | _ => c.advance r b stage event
  match o.turn with
  | .waiting _ => o
  | _ => { o with catchUp := { o.catchUp with signal := o.catchUp.signal.drop arming } }

/-! ### From outside -/

/-- Begins an attempt, which bears the number of armings then. -/
def start : CatchUp := { c with signal := c.signal.arm }

/-- Stops the attempt. -/
def stop : CatchUp := { c with signal := c.signal.trigger }

/-- A downloader that starts over. -/
def anew : CatchUp := { mode := c.mode, checkpoint := c.checkpoint, resync := true }

/-- Which peers the attempt needs: those that have its pivot block. -/
def trailingPeers (p : Progress) : Option TrailingPeers :=
  if c.signal.isArmed && !p.initialDone then c.pivot.map fun pivot => ⟨pivot.number, 0⟩ else none

end CatchUp

end ExecutionNode.Sync
