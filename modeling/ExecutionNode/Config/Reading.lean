import ExecutionNode.Config
import ExecutionNode.Duration.Words
import ExecutionNode.Record

/-!
# Reading settings

Settings are read from values of some format.  What is not given has its usual value, and names
that are not known are passed over; a trusted block must be given with its number and its hash.
-/

namespace ExecutionNode

/-- What the values of a format can be taken for. -/
structure Config.Format (V : Type) where
  /-- A record of fields, given by their names in order. -/
  record? : List String → V → Option (Record V)
  /-- One of several names. -/
  choice? : V → Option String
  /-- A text. -/
  text? : V → Option String
  /-- A word of 64 bits. -/
  uint64? : V → Option UInt64
  /-- A hash. -/
  hash? : V → Option Hash
  /-- Whether the value stands for the absence of one. -/
  isNull : V → Bool

namespace Config.Format

variable {V : Type} (f : Format V)

/-- A value that may stand for its absence. -/
def nullable? {α : Type} (read? : V → Option α) (v : V) : Option (Option α) :=
  if f.isNull v then some none else (read? v).map some

/-- Reads a way to the head. -/
def mode? (v : V) : Option SyncMode := f.choice? v >>= SyncMode.ofName?

/-- Reads a duration in words. -/
def duration? (v : V) : Option Duration := f.text? v >>= Duration.ofWords?

/-- Reads a trusted block. -/
def checkpoint? (v : V) : Option Checkpoint := do
  let r ← f.record? ["number", "hash"] v
  let number ← r.required "number" f.uint64?
  let hash ← r.required "hash" f.hash?
  some { number, hash }

/-- The names of the settings of the synchronization, in their order. -/
def syncNames : List String :=
  ["sync_mode", "pivot_distance", "min_peers_for_pivot", "pivot_selection_timeout",
    "max_trailing_peers", "in_sync_tolerance", "checkpoint"]

/-- Reads the settings of the synchronization. -/
def sync? (v : V) : Option SyncConfig := do
  let usual : SyncConfig := {}
  let r ← f.record? syncNames v
  let mode ← r.orElse "sync_mode" f.mode? usual.mode
  let pivotDistance ← r.orElse "pivot_distance" f.uint64? usual.pivotDistance
  let minPeersForPivot ← r.orElse "min_peers_for_pivot" f.uint64? usual.minPeersForPivot
  let pivotTimeout ← r.orElse "pivot_selection_timeout" f.duration? usual.pivotTimeout
  let maxTrailingPeers ←
    r.orElse "max_trailing_peers" (f.nullable? f.uint64?) usual.maxTrailingPeers
  let tolerance ← r.orElse "in_sync_tolerance" f.uint64? usual.tolerance
  let checkpoint ← r.orElse "checkpoint" (f.nullable? f.checkpoint?) usual.checkpoint
  some { mode, pivotDistance, minPeersForPivot, pivotTimeout, maxTrailingPeers, tolerance,
         checkpoint }

/-- Reads the settings of the engine. -/
def engine? (v : V) : Option EngineConfig := do
  let usual : EngineConfig := {}
  let r ← f.record? ["max_extra_data_size"] v
  let maxExtraData ← r.orElse "max_extra_data_size" f.uint64? usual.maxExtraData
  some { maxExtraData }

/-- Reads the settings of a node. -/
def config? (v : V) : Option Config := do
  let usual : Config := {}
  let r ← f.record? ["sync", "engine"] v
  let sync ← r.orElse "sync" f.sync? usual.sync
  let engine ← r.orElse "engine" f.engine? usual.engine
  some { sync, engine }

end Config.Format

end ExecutionNode
