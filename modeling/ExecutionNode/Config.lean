import ExecutionNode.Bytes
import ExecutionNode.Duration

/-!
# Settings

The settings of a node, with the values that hold where nothing is set, and the check that they
can be used together.
-/

namespace ExecutionNode

/-- How a node gets to the head of the chain. -/
inductive SyncMode where
  /-- By executing every block. -/
  | full
  /-- By fetching the state at a pivot block node by node. -/
  | fast
  /-- By fetching the state at a pivot block in ranges. -/
  | snap
  /-- By fetching the state in ranges, with a chain that begins at a trusted block. -/
  | checkpoint
deriving DecidableEq

namespace SyncMode

/-- All modes. -/
def all : List SyncMode := [full, fast, snap, checkpoint]

/-- The name of a mode. -/
def name : SyncMode → String
  | full => "full"
  | fast => "fast"
  | snap => "snap"
  | checkpoint => "checkpoint"

/-- The mode of a name. -/
def ofName? (name : String) : Option SyncMode := all.find? (·.name = name)

/-- Whether the state at a pivot block is fetched first. -/
def isPivoted (mode : SyncMode) : Bool := mode != full

end SyncMode

/-- A trusted block. -/
structure Checkpoint where
  /-- Its number. -/
  number : UInt64
  /-- Its hash. -/
  hash : Hash
deriving DecidableEq

/-- The settings of the synchronization. -/
structure SyncConfig where
  /-- The way to the head. -/
  mode : SyncMode := .snap
  /-- How far the pivot block lies behind the head. -/
  pivotDistance : UInt64 := 50
  /-- How many peers have to agree on the head. -/
  minPeersForPivot : UInt64 := 5
  /-- How long to wait for a pivot block. -/
  pivotTimeout : Duration := .seconds 30
  /-- How many peers behind the local head are kept. -/
  maxTrailingPeers : Option UInt64 := none
  /-- How far the local head may be behind the best known block. -/
  tolerance : UInt64 := 5
  /-- The trusted block. -/
  checkpoint : Option Checkpoint := none
deriving DecidableEq

/-- The settings of the engine. -/
structure EngineConfig where
  /-- How long the free bytes of a block may be. -/
  maxExtraData : UInt64 := 32
deriving DecidableEq

/-- The settings of a node. -/
structure Config where
  /-- Of the synchronization. -/
  sync : SyncConfig := {}
  /-- Of the engine. -/
  engine : EngineConfig := {}
deriving DecidableEq

namespace Config

/-- Why settings cannot be used. -/
inductive Problem where
  /-- A chain cannot begin at a trusted block that is not given. -/
  | noCheckpoint
  /-- No peer is enough. -/
  | noPeers
deriving DecidableEq

/-- The wording of a problem. -/
def Problem.message : Problem → String
  | noCheckpoint => "checkpoint sync requires a [sync.checkpoint] section"
  | noPeers => "min_peers_for_pivot must be positive"

/-- What is wrong with the settings. -/
def problem? (c : Config) : Option Problem :=
  if c.sync.mode = .checkpoint ∧ c.sync.checkpoint = none then some .noCheckpoint
  else if c.sync.minPeersForPivot = 0 then some .noPeers
  else none

end Config

end ExecutionNode
