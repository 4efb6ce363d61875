import ExecutionNode.Simulation.Scene
import ExecutionNode.Sync.Synchronizer

/-!
# What can be simulated

A synchronizer can be put into a scene, but also a downloader alone with the runs it was asked
for.
-/

namespace ExecutionNode.Simulation

open Sync

/-! ### Catch-ups -/

/-- What a catch-up waits for. -/
def waitOfCatchUp : CatchUp.Stage → Wait
  | .fresh => .turn
  | .selecting => .selection
  | .downloading _ chainDone stateDone => .downloads (!chainDone) (!stateDone)

/-- A downloader for catching up, with its attempts. -/
structure CatchUps where
  /-- The downloader. -/
  catchUp : CatchUp
  /-- The sync state and the calls. -/
  book : Logbook
  /-- The attempts: the number of the arming, and how far each is. -/
  runs : List (Nat × Turn CatchUp.Stage SealedHeader) := []

namespace CatchUps

/-- Begins an attempt. -/
def start (s : CatchUps) : CatchUps :=
  { s with
    catchUp := s.catchUp.start
    runs := s.runs ++ [(s.catchUp.signal.arms + 1, .waiting .fresh)] }

/-- Begins an attempt that nobody carries on with. -/
def startInVain (s : CatchUps) : CatchUps :=
  let c := s.catchUp.start
  { s with catchUp := { c with signal := c.signal.drop c.signal.arms } }

instance : HasRuns CatchUps where
  waits s := s.runs.map fun
    | (arming, .waiting stage) => (waitOfCatchUp stage, s.catchUp.signal.hasStopped arming)
    | _ => (.nothing, false)
  resume s replies run event :=
    match s.runs[run]? with
    | some (arming, .waiting stage) =>
      let o := s.catchUp.resume replies s.book arming stage event
      ⟨o.catchUp, o.book, s.runs.set run (arming, o.turn)⟩
    | _ => s
  takeCalls s := (s.book.calls, { s with book := { s.book with calls := [] } })

end CatchUps

/-! ### Full sync -/

/-- What a run of full sync waits for. -/
def waitOfFullSync (f : FullSync) : FullSync.Stage → Wait
  | .fresh => .turn
  | .importing => .batch
  | .pausing => .pause f.idle

/-- A downloader of new blocks, with its runs. -/
structure FullSyncs where
  /-- The downloader. -/
  fullSync : FullSync
  /-- The sync state and the calls. -/
  book : Logbook
  /-- The runs: the number of the arming, and how far each is. -/
  runs : List (Nat × Turn FullSync.Stage Unit) := []

namespace FullSyncs

/-- Begins a run. -/
def start (s : FullSyncs) : FullSyncs :=
  { s with
    fullSync := s.fullSync.start
    runs := s.runs ++ [(s.fullSync.signal.arms + 1, .waiting .fresh)] }

/-- Begins a run that nobody carries on with. -/
def startInVain (s : FullSyncs) : FullSyncs :=
  let f := s.fullSync.start
  { s with fullSync := { f with signal := f.signal.drop f.signal.arms } }

instance : HasRuns FullSyncs where
  waits s := s.runs.map fun
    | (arming, .waiting stage) =>
      (waitOfFullSync s.fullSync stage, s.fullSync.signal.hasStopped arming)
    | _ => (.nothing, false)
  resume s replies run event :=
    match s.runs[run]? with
    | some (arming, .waiting stage) =>
      let o := s.fullSync.resume replies s.book arming stage event
      ⟨o.fullSync, o.book, s.runs.set run (arming, o.turn)⟩
    | _ => s
  takeCalls s := (s.book.calls, { s with book := { s.book with calls := [] } })

end FullSyncs

/-! ### Synchronizers -/

/-- What a run of a synchronizer waits for, and whether its stop signal went off. -/
def waitOfRun (s : Synchronizer) : Run → Wait × Bool
  | .fresh => (.turn, false)
  | .catchingUp downloader arming stage =>
    (waitOfCatchUp stage, s.catchUps[downloader]?.any (·.signal.hasStopped arming))
  | .following arming stage =>
    match s.fullSync with
    | some f => (waitOfFullSync f stage, f.signal.hasStopped arming)
    | none => (.nothing, false)
  | .ended _ => (.nothing, false)
  | .panicked => (.nothing, false)

instance : HasRuns Synchronizer where
  waits s := s.runs.map (waitOfRun s)
  resume s replies run event := s.resume replies run event
  takeCalls s := (s.book.calls, { s with book := { s.book with calls := [] } })

end ExecutionNode.Simulation
