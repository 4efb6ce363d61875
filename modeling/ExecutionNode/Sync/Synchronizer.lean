import ExecutionNode.Sync.CatchUp
import ExecutionNode.Sync.FullSync

/-!
# The synchronizer

A synchronizer catches up, hands the node over to full sync, and follows the chain until the
download should end.  Every start begins a run of its own.  A run that was stopped may go on for
a while, because it notices the stop only at its next step; so whatever it does for the whole
node it does only while it is the current run.

`start`, `stop` and `resync` act from outside, `resume` is a step of one run.  All of them change
nothing but the synchronizer and append to its logbook.
-/

namespace ExecutionNode.Sync

/-- How far a run of the synchronizer is. -/
inductive Run where
  /-- It has not begun and has nothing to catch up with. -/
  | fresh
  /-- It catches up, with the downloader of a number and the arming of a number. -/
  | catchingUp (downloader arming : Nat) (stage : CatchUp.Stage)
  /-- It follows the chain, with the arming of a number. -/
  | following (arming : Nat) (stage : FullSync.Stage)
  /-- It ended. -/
  | ended (result : Except RunError Unit)
  /-- It broke down. -/
  | panicked

/-- A synchronizer. -/
structure Synchronizer where
  /-- The sync state, and what was done. -/
  book : Logbook
  /-- Whether there is block propagation to switch on and off. -/
  propagates : Bool
  /-- Whether there is a pruner to switch on and off. -/
  prunes : Bool
  /-- The downloaders for catching up, the current one last; none if nothing is caught up with. -/
  catchUps : List CatchUp
  /-- The downloader of new blocks, unless there is nothing to follow. -/
  fullSync : Option FullSync
  /-- Whether a run is active. -/
  running : Bool := false
  /-- Whether missing nodes are fetched on demand. -/
  fallbackEnabled : Bool := false
  /-- The runs, the current one last. -/
  runs : List Run := []

namespace Synchronizer

variable (s : Synchronizer)

/-- The sync state. -/
def state : State := s.book.state

/-- Makes a call. -/
def call (c : Call) : Synchronizer := { s with book := s.book.call c }

/-- Makes a call if there is someone to make it to. -/
def callIf (condition : Bool) (c : Call) : Synchronizer := if condition then s.call c else s

/-- Changes the progress. -/
def change (c : Progress.Change) : Synchronizer := { s with book := s.book.change c }

/-- The current downloader for catching up. -/
def catchUp? : Option CatchUp := s.catchUps.getLast?

/-- Replaces the current downloader for catching up. -/
def mapCatchUp (f : CatchUp → CatchUp) : Synchronizer :=
  { s with catchUps := s.catchUps.modify (s.catchUps.length - 1) f }

/-- Whether the run of a number is active and the latest. -/
def isCurrent (run : Nat) : Bool := s.running && run + 1 == s.runs.length

/-- Notes how far a run is. -/
def setRun (run : Nat) (stage : Run) : Synchronizer := { s with runs := s.runs.set run stage }

/-! ### From outside -/

/-- Begins a run. -/
def start (r : Replies) : Except LifecycleError Synchronizer :=
  if s.running then .error .alreadyRunning
  else
    let s := { s with running := true }.callIf (s.propagates && !r.propagating) .startPropagation
    let run : Run :=
      match s.catchUp? with
      | some c => .catchingUp (s.catchUps.length - 1) (c.signal.arms + 1) .fresh
      | none => .fresh
    let s := s.mapCatchUp CatchUp.start
    .ok { s with runs := s.runs ++ [run] }

/-- Stops the active run. -/
def stop (r : Replies) : Synchronizer :=
  if s.running then
    let s := { s with running := false }.mapCatchUp CatchUp.stop
    let s := { s with fullSync := s.fullSync.map FullSync.stop }
    let s := s.callIf s.prunes .stopPruner
    s.callIf (s.propagates && r.propagating) .stopPropagation
  else s

/-- Fetches the world state again from scratch, with a new downloader, and says so. That the kept
pivot block could not be forgotten does not matter, because the new downloader leaves it aside. The
first replies are given while the active run is stopped, the second ones from then on. -/
def resync (r r' : Replies) : Bool × Synchronizer :=
  let s := s.stop r
  let s := s.callIf s.catchUp?.isSome .deletePivot
  let s := s.change .restart
  let s := { s with catchUps := s.catchUps ++ (s.catchUp?.map CatchUp.anew).toList }
  (true,
    match s.start r' with
    | .ok s => s
    | .error _ => s)

/-- Passes a forkchoice state on. -/
def announce (state : ForkchoiceState) : Synchronizer :=
  (s.callIf s.propagates (.announceToPropagation state)).callIf s.catchUp?.isSome
    (.announceToSelector state)

/-- Waits for the pruner to stop. -/
def awaitStop : Synchronizer := s.callIf s.prunes .awaitPruner

/-- The progress to report: none unless a run is active. -/
def status : Option Status := if s.running then s.state.status else none

/-- Which peers may be let go, as the active download sees it. -/
def trailingPeers : TrailingPeers :=
  ((s.catchUp?.bind (·.trailingPeers s.state.progress)).or
    (s.fullSync.bind (·.trailingPeers s.state))).getD .unrestricted

/-! ### Steps of a run -/

/-- Winds down after a run, unless a newer one took over. -/
def windDown (run : Nat) : Synchronizer :=
  if run + 1 = s.runs.length then
    let s := (s.callIf s.propagates .stopPropagation).callIf s.prunes .stopPruner
    { s with running := false }
  else s

/-- Ends a run. -/
def finish (run : Nat) (result : Except RunError Unit) : Synchronizer :=
  (s.setRun run (.ended result)).windDown run

/-- Has missing nodes fetched on demand, if that is possible and not the case yet. -/
def enableFallback (r : Replies) : Synchronizer :=
  if r.supportsFallback && !s.fallbackEnabled then
    { s with fallbackEnabled := true }.call .enableFallback
  else s

/-- Ends a run that has nothing left to download, after noting whether that is for good. -/
def conclude (r : Replies) (run : Nat) : Synchronizer :=
  let s := s.call (.consultTermination r.overAtEnd)
  let s := if r.overAtEnd then s.change (.terminal true) else s
  s.finish run (.ok ())

/-- Notes what a step of full sync came to. -/
def afterFullSync (r : Replies) (run arming : Nat) (o : FullSync.Outcome) : Synchronizer :=
  let s := { s with fullSync := some o.fullSync, book := o.book }
  match o.turn with
  | .waiting stage => s.setRun run (.following arming stage)
  | .ended (.ok ()) => s.conclude r run
  | .ended (.error e) => s.finish run (.error e)
  | .panicked => s.setRun run .panicked

/-- Goes on with full sync, if the run is still the current one. -/
def follow (r : Replies) (run : Nat) : Synchronizer :=
  if s.isCurrent run then
    let s := s.callIf s.prunes .startPruner
    match s.fullSync with
    | none => s.conclude r run
    | some f =>
      let s := s.call .startFullSync
      let f := f.start
      s.afterFullSync r run f.signal.arms (f.resume r s.book f.signal.arms .fresh .begun)
  else s.finish run (.ok ())

/-- Makes the downloaded world state the state of the node and goes on with full sync. -/
def handOver (r : Replies) (run : Nat) (pivot : SealedHeader) : Synchronizer :=
  let s := s.call .deletePivot
  match r.delete with
  | .error f => s.finish run (.error (.fault f))
  | .ok () =>
    let s := s.call (.anchor pivot)
    match r.anchor with
    | .error f => s.finish run (.error (.fault f))
    | .ok () =>
      let s := ((s.call .closeSelector).change .initialDone).enableFallback r
      let s := s.call (.consultTermination r.overAfterCatchUp)
      if r.overAfterCatchUp then (s.change (.terminal true)).finish run (.ok ())
      else s.follow r run

/-- Notes what a step of a catch-up came to. Nothing comes of it if the run is no longer the
current one. -/
def afterCatchUp (r : Replies) (run downloader arming : Nat) (o : CatchUp.Outcome) :
    Synchronizer :=
  let s := { s with catchUps := s.catchUps.set downloader o.catchUp, book := o.book }
  match o.turn with
  | .waiting stage => s.setRun run (.catchingUp downloader arming stage)
  | .panicked => s.setRun run .panicked
  | .ended result =>
    if s.isCurrent run then
      match result with
      | .ok pivot => s.handOver r run pivot
      | .error e => s.finish run (.error e)
    else s.finish run (.ok ())

/-- A step of the run of a number. -/
def resume (r : Replies) (run : Nat) (event : Event) : Synchronizer :=
  match s.runs[run]? with
  | some .fresh =>
    match event with
    | .begun => ((s.change .initialDone).enableFallback r).follow r run
    | _ => s
  | some (.catchingUp downloader arming stage) =>
    match s.catchUps[downloader]? with
    | some c => s.afterCatchUp r run downloader arming (c.resume r s.book arming stage event)
    | none => s
  | some (.following arming stage) =>
    match s.fullSync with
    | some f => s.afterFullSync r run arming (f.resume r s.book arming stage event)
    | none => s
  | _ => s

end Synchronizer

end ExecutionNode.Sync
