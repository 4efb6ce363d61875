import ExecutionNode.Fault

/-!
# Errors of the synchronization

A pivot block may not be found, a run may fail, and a synchronizer may not be built or started.
Faults of the node pass through all of them with their own wording.
-/

namespace ExecutionNode.Sync

/-- Why no pivot block was found. -/
inductive PivotError where
  /-- Too few peers announced their head in time. -/
  | notEnoughPeers (found needed : Nat)
  /-- The chain is not longer than the distance that the pivot block keeps from its head. -/
  | chainTooShort (height distance : UInt64)
  /-- No peer has the header of a number. -/
  | headerUnavailable (number : UInt64)
  /-- No safe block was announced in time. -/
  | noSafeBlock
  /-- No peer has the header of the safe block. -/
  | unknownSafeBlock (hash : Hash)
  /-- The node failed. -/
  | fault (f : Fault)
deriving DecidableEq

/-- The name of the error. -/
def PivotError.kind : PivotError → String
  | notEnoughPeers .. => "NotEnoughPeers"
  | chainTooShort .. => "ChainTooShort"
  | headerUnavailable _ => "HeaderUnavailable"
  | noSafeBlock => "NoSafeBlock"
  | unknownSafeBlock _ => "UnknownSafeBlock"
  | fault _ => "Fault"

/-- The wording of the error. -/
def PivotError.message : PivotError → String
  | notEnoughPeers found needed =>
    s!"not enough peers to select a pivot block: have {found}, need {needed}"
  | chainTooShort height distance =>
    s!"chain height {height} is too low for pivot distance {distance}"
  | headerUnavailable number => s!"pivot header {number} unavailable"
  | noSafeBlock => "no safe block announced"
  | unknownSafeBlock hash => "safe block " ++ hash.text ++ " unknown"
  | fault f => f.text

/-- Why a run failed. -/
inductive RunError where
  /-- No pivot block was found. -/
  | pivot (e : PivotError)
  /-- The node failed. -/
  | fault (f : Fault)
  /-- The pivot block lies before the trusted block. -/
  | pivotBelowCheckpoint (pivot checkpoint : UInt64)
  /-- The chain could not be fetched. -/
  | chainDownload (reason : String)
  /-- The world state could not be fetched. -/
  | stateDownload (reason : String)
  /-- The run was stopped. -/
  | stopped
  /-- The run broke down. -/
  | task (reason : String)
deriving DecidableEq

/-- The name of the error. -/
def RunError.kind : RunError → String
  | pivot _ => "PivotSelection"
  | fault _ => "Fault"
  | pivotBelowCheckpoint .. => "PivotBelowCheckpoint"
  | chainDownload _ => "ChainDownload"
  | stateDownload _ => "WorldStateDownload"
  | stopped => "Stopped"
  | task _ => "Task"

/-- The wording of the error. -/
def RunError.message : RunError → String
  | pivot e => e.message
  | fault f => f.text
  | pivotBelowCheckpoint number trusted =>
    s!"pivot block {number} is below checkpoint block {trusted}"
  | chainDownload reason => "chain download failed: " ++ reason
  | stateDownload reason => "world state download failed: " ++ reason
  | stopped => "sync stopped"
  | task reason => "sync task failed: " ++ reason

/-- What a synchronizer cannot do without. -/
inductive Component where
  /-- The archive of world states. -/
  | worldState
  /-- The source of blocks. -/
  | chain
  /-- The source of world states. -/
  | stateDownloader
  /-- The store of the pivot block. -/
  | store
  /-- The trusted block. -/
  | checkpoint
  /-- The heads of the peers. -/
  | peers
deriving DecidableEq

/-- The name of a component. -/
def Component.name : Component → String
  | worldState => "world state archive"
  | chain => "chain downloader"
  | stateDownloader => "world state downloader"
  | store => "catch-up store"
  | checkpoint => "checkpoint"
  | peers => "peer chain heads"

/-- Why a synchronizer was not built or started. -/
inductive LifecycleError where
  /-- A run is active already. -/
  | alreadyRunning
  /-- A component is missing. -/
  | missing (c : Component)
deriving DecidableEq

/-- The name of the error. -/
def LifecycleError.kind : LifecycleError → String
  | alreadyRunning => "AlreadyRunning"
  | missing _ => "MissingComponent"

/-- The wording of the error. -/
def LifecycleError.message : LifecycleError → String
  | alreadyRunning => "attempt to start an already started synchronizer"
  | missing c => "missing synchronizer component: " ++ c.name

end ExecutionNode.Sync
