import ExecutionNode.Engine
import ExecutionNode.Summary

/-!
# Summaries of the engine

Of the bad blocks only their number is shown, of the surroundings only whether payloads can be
built.
-/

namespace ExecutionNode.Engine

/-- The summary of the engine's settings. -/
def configSummary (e : Engine) : String :=
  Summary.record "EngineConfig" [("max_extra_data_size", toString e.maxExtraData)] false

/-- The summary of the engine. -/
def summary (e : Engine) : String :=
  Summary.record "BeaconConsensusEngine"
    [("bad_blocks", toString e.badBlocks.entries.length), ("config", e.configSummary),
      ("has_payload_store", toString e.buildsPayloads)] true

end ExecutionNode.Engine
