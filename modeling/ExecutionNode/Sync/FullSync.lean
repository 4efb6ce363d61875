import ExecutionNode.Sync.Collaborators
import ExecutionNode.Sync.StopSignal
import ExecutionNode.Sync.TrailingPeers

/-!
# Full sync

Full sync imports and executes the blocks that are new, some at a time, until it is stopped or
the download should end.  When there are none it pauses before it asks again.
-/

namespace ExecutionNode.Sync

/-- A downloader of new blocks. -/
structure FullSync where
  /-- How many peers behind the local head are kept; all of them if not given. -/
  maxTrailingPeers : Option UInt64
  /-- How long it pauses when there are no new blocks. -/
  idle : Duration
  /-- The stop signal. -/
  signal : StopSignal := {}

namespace FullSync

/-- How long a pause is where nothing else is set. -/
def defaultIdle : Duration := .seconds 1

/-- How far a run is. -/
inductive Stage where
  /-- It has not begun. -/
  | fresh
  /-- It waits for new blocks. -/
  | importing
  /-- It pauses. -/
  | pausing

/-- Where a step leaves a downloader and its run. -/
structure Outcome where
  /-- The downloader. -/
  fullSync : FullSync
  /-- What was done. -/
  book : Logbook
  /-- The run. -/
  turn : Turn Stage Unit

variable (f : FullSync)

/-! ### Steps -/

/-- The run asks for new blocks, unless the download should end. -/
def ask (r : Replies) (b : Logbook) : Outcome :=
  let b := b.call (.consultTermination r.overBeforeBatch)
  if r.overBeforeBatch then ⟨f, b, .ended (.ok ())⟩
  else ⟨f, b.call .importBatch, .waiting .importing⟩

/-- The run goes on after what it waited for. -/
def advance (r : Replies) (b : Logbook) : Stage → Event → Outcome
  | .fresh, .begun => f.ask r b
  | .importing, .batchImported (.ok (some head)) => f.ask r (b.change (.localHead head))
  | .importing, .batchImported (.ok none) => ⟨f, b, .waiting .pausing⟩
  | .importing, .batchImported (.error e) => ⟨f, b, .ended (.error e)⟩
  | .importing, .panicked => ⟨f, b, .panicked⟩
  | .pausing, .woken => f.ask r b
  | stage, _ => ⟨f, b, .waiting stage⟩

/-- A step of the run of an arming. The stop signal ends the run wherever it is; whoever does not
wait no longer listens to it. -/
def resume (r : Replies) (b : Logbook) (arming : Nat) (stage : Stage) (event : Event) : Outcome :=
  let o : Outcome :=
    match event with
    | .stopSignalled =>
      if f.signal.hasStopped arming then ⟨f, b, .ended (.ok ())⟩ else ⟨f, b, .waiting stage⟩
    | _ => f.advance r b stage event
  match o.turn with
  | .waiting _ => o
  | _ => { o with fullSync := { o.fullSync with signal := o.fullSync.signal.drop arming } }

/-! ### From outside -/

/-- Begins a run, which bears the number of armings then. -/
def start : FullSync := { f with signal := f.signal.arm }

/-- Stops the run. -/
def stop : FullSync := { f with signal := f.signal.trigger }

/-- Which peers may be let go while blocks are imported: those behind the local head, but none
once the node is in sync. -/
def trailingPeers (s : State) : Option TrailingPeers :=
  if !f.signal.isArmed then none
  else if s.inSync then some .unrestricted
  else some ⟨s.progress.localHead, f.maxTrailingPeers.getD TrailingPeers.all⟩

end FullSync

end ExecutionNode.Sync
