import ExecutionNode.Sync.Pivot
import ExecutionNode.Sync.State

/-!
# What the synchronization exchanges with its collaborators

The synchronization drives others: it asks for blocks and world states, it keeps the pivot block
in a store, it switches block propagation and pruning on and off.  A `Call` is anything that it
does to them, giving notice to a listener included; changes of the progress and the beginning of
full sync count as calls too, so that the order of everything a step does can be told.  Those who
answer at once do so within a step; `Replies` holds their answers for one step.  Those who need
time are waited for; an `Event` says what the waiting came to.  Between two events a run does not
act, so the history of a synchronization is a list of steps.
-/

namespace ExecutionNode.Sync

/-- How the world state at the pivot block is fetched. -/
inductive StateMethod where
  /-- Node by node, from the root. -/
  | nodes
  /-- In ranges, which are made into a trie afterwards. -/
  | ranges
deriving DecidableEq

/-- What is done to collaborators. -/
inductive Call where
  /-- A listener is given notice. -/
  | notify (notice : Notice)
  /-- The progress is changed; the notices of it come after. -/
  | change (c : Progress.Change)
  /-- A pivot block is asked for. -/
  | selectPivot
  /-- The selector is told of a forkchoice state. -/
  | announceToSelector (state : ForkchoiceState)
  /-- The selector may let go of what it needed. -/
  | closeSelector
  /-- The heads of the peers are read; there are so many. -/
  | readHeads (count : Nat)
  /-- A header is asked for. -/
  | fetchHeader (query : HeaderQuery)
  /-- The kept pivot block is read. -/
  | loadPivot
  /-- A pivot block is kept. -/
  | savePivot (pivot : SealedHeader)
  /-- The kept pivot block is forgotten. -/
  | deletePivot
  /-- The chain up to the pivot block is asked for, from the trusted block on or from the first. -/
  | importToPivot (start : Option BlockId) (pivot : SealedHeader)
  /-- The world state at the pivot block is asked for. -/
  | downloadState (pivot : SealedHeader) (method : StateMethod)
  /-- Full sync begins. -/
  | startFullSync
  /-- The next blocks on top of the local head are asked for. -/
  | importBatch
  /-- The world state at the pivot block becomes the current one. -/
  | anchor (pivot : SealedHeader)
  /-- Missing nodes of the world state are fetched on demand from now on. -/
  | enableFallback
  /-- It is asked whether the download should end; the answer is kept with the question. -/
  | consultTermination (isOver : Bool)
  /-- Pruning begins. -/
  | startPruner
  /-- Pruning ends. -/
  | stopPruner
  /-- The end of pruning is waited for. -/
  | awaitPruner
  /-- Block propagation begins. -/
  | startPropagation
  /-- Block propagation ends. -/
  | stopPropagation
  /-- Block propagation is told of a forkchoice state. -/
  | announceToPropagation (state : ForkchoiceState)
deriving DecidableEq

/-- How a request failed at once. -/
inductive Failure where
  /-- With an error. -/
  | error (e : RunError)
  /-- Whoever was asked broke down. -/
  | panic
deriving DecidableEq

/-- The answers of those who answer at once, in one step. -/
structure Replies where
  /-- Whether block propagation is on. -/
  propagating : Bool
  /-- The kept pivot block. -/
  load : Except Fault (Option SealedHeader)
  /-- Whether the pivot block could be kept. -/
  save : Except Fault Unit
  /-- Whether the kept pivot block could be forgotten. -/
  delete : Except Fault Unit
  /-- Whether the world state could be made the current one. -/
  anchor : Except Fault Unit
  /-- Whether missing nodes can be fetched on demand. -/
  supportsFallback : Bool
  /-- How the import of the chain fails without anything else having been asked for. -/
  importRefused : Option Failure
  /-- Whether the download should end, when a catch-up is complete. -/
  overAfterCatchUp : Bool
  /-- Whether the download should end, before the next blocks are asked for. -/
  overBeforeBatch : Bool
  /-- Whether the download should end, after it ended. -/
  overAtEnd : Bool

/-- What a run waited for. -/
inductive Event where
  /-- Its turn, for the first time. -/
  | begun
  /-- A pivot block. -/
  | selected (result : Except PivotError SealedHeader)
  /-- The chain up to the pivot block. -/
  | chainImported (result : Except RunError Unit)
  /-- The world state. -/
  | stateDownloaded (result : Except RunError Unit)
  /-- The next blocks, which lead to a new head unless there were none. -/
  | batchImported (result : Except RunError (Option UInt64))
  /-- The end of a pause. -/
  | woken
  /-- Whoever it waited for broke down. -/
  | panicked
  /-- The stop signal. -/
  | stopSignalled

/-- Where a step leaves a run. -/
inductive Turn (σ α : Type) where
  /-- It waits. -/
  | waiting (stage : σ)
  /-- It ended. -/
  | ended (result : Except RunError α)
  /-- It broke down. -/
  | panicked

/-- How a run goes on, or rather does not, after a failure. -/
def Failure.turn {σ α : Type} : Failure → Turn σ α
  | error e => .ended (.error e)
  | panic => .panicked

/-- The sync state together with the calls that were made. -/
structure Logbook where
  /-- The sync state. -/
  state : State
  /-- The calls, in order. -/
  calls : List Call

namespace Logbook

/-- Makes a call. -/
def call (b : Logbook) (c : Call) : Logbook := { b with calls := b.calls ++ [c] }

/-- Performs an operation on the sync state. The notices that it gives are calls. -/
def perform (b : Logbook) (op : Operation) : Logbook :=
  let state := State.perform op { b.state with notices := [] }
  ⟨{ state with notices := [] }, b.calls ++ state.notices.map .notify⟩

/-- Changes the progress. -/
def change (b : Logbook) (c : Progress.Change) : Logbook :=
  (b.call (.change c)).perform (.change c)

end Logbook

end ExecutionNode.Sync
