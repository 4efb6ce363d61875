import ExecutionNode.Summary
import ExecutionNode.Sync.Assembly

/-!
# Summaries of the synchronization

Each part is summarized with the parts that it holds.  Collaborators, and what is only there for
bookkeeping, are left out.
-/

namespace ExecutionNode.Sync

/-- The summary of the progress. -/
def Progress.summary (p : Progress) : String :=
  Summary.record "Progress"
    [("initial_sync_done", toString p.initialDone),
      ("reached_terminal_difficulty", Summary.option toString p.terminal),
      ("best_chain_height", toString p.best), ("local_head", toString p.localHead),
      ("starting_block", toString p.starting)] false

/-- The summary of the sync state. -/
def State.summary (s : State) : String :=
  Summary.record "SyncState"
    [("progress", s.progress.summary), ("in_sync_tolerance", toString s.tolerance),
      ("sync_status_listeners", toString s.statusSubscriptions.length),
      ("in_sync_listeners", toString s.inSyncSubscriptions.length)] true

/-- The summary of a selector. -/
def Selector.summary : Selector → String
  | peers s =>
    Summary.record "PeerPivotSelector"
      [("pivot_distance", toString s.distance), ("min_peers", toString s.minPeers),
        ("timeout", s.timeout.text)] true
  | safeBlock s =>
    Summary.record "SafeBlockPivotSelector"
      [("safe_block", Summary.option (·.text) s.safeBlock), ("timeout", s.timeout.text)] true

/-- The summary of a stop signal. -/
def StopSignal.summary (s : StopSignal) : String :=
  let lock := Summary.record "RwLock" [("data", "false"), ("poisoned", "false")] true
  let sender :=
    Summary.record "Sender"
      [("shared", Summary.record "Shared"
        [("value", "RwLock(" ++ lock ++ ")"),
          ("version", "Version(0)"), ("is_closed", "false"),
          ("ref_count_rx", toString s.receivers)] false)] false
  Summary.record "StopSignal"
    [("current", Summary.record "Mutex"
      [("data", Summary.option id (if s.held then some sender else none))] false)] false

/-- The name of a mode in summaries. -/
def modeSummary : SyncMode → String
  | .full => "Full"
  | .fast => "Fast"
  | .snap => "Snap"
  | .checkpoint => "Checkpoint"

/-- The summary of a trusted block. -/
def checkpointSummary (c : Checkpoint) : String :=
  Summary.record "CheckpointConfig" [("number", toString c.number), ("hash", c.hash.text)] false

/-- The summary of a block's number and hash. -/
def blockIdSummary (b : BlockId) : String :=
  Summary.record "BlockNumHash" [("number", toString b.number), ("hash", b.hash.text)] false

/-- The summary of a downloader for catching up. -/
def CatchUp.summary (c : CatchUp) : String :=
  Summary.record "PivotedSyncDownloader"
    [("inner", Summary.record "PivotedInner"
      [("mode", modeSummary c.mode), ("resync", toString c.resync),
        ("checkpoint", Summary.option checkpointSummary c.checkpoint),
        ("pivot", Summary.option (blockIdSummary ·.id) c.pivot)] true),
      ("stop", c.signal.summary)] false

/-- The summary of a downloader of new blocks. -/
def FullSync.summary (f : FullSync) : String :=
  Summary.record "FullSyncDownloader"
    [("max_trailing_peers", Summary.option toString f.maxTrailingPeers),
      ("idle_interval", f.idle.text)] true

/-- The summary of a synchronizer. -/
def Synchronizer.summary (s : Synchronizer) : String :=
  Summary.record "Synchronizer"
    [("running", toString s.running), ("run_id", toString s.runs.length),
      ("sync_state", s.state.summary),
      ("full_sync", Summary.option FullSync.summary s.fullSync)] true

/-- The summary of settings. -/
def configSummary (c : SyncConfig) : String :=
  Summary.record "SynchronizerConfig"
    [("sync_mode", modeSummary c.mode), ("pivot_distance", toString c.pivotDistance),
      ("min_peers_for_pivot", toString c.minPeersForPivot),
      ("pivot_selection_timeout", c.pivotTimeout.text),
      ("max_trailing_peers", Summary.option toString c.maxTrailingPeers),
      ("in_sync_tolerance", toString c.tolerance),
      ("checkpoint", Summary.option checkpointSummary c.checkpoint)] false

/-- The summary of what a synchronizer is assembled from. -/
def assemblySummary (c : SyncConfig) (idle : Duration) : String :=
  Summary.record "SynchronizerBuilder"
    [("config", configSummary c), ("idle_interval", idle.text)] true

end ExecutionNode.Sync
