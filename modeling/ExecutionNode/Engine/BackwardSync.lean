import ExecutionNode.Fault

/-!
# Errors of backward sync

Backward sync fetches the ancestors of a block whose parent is not known.  Its failures are noted
but change no answer of the engine.
-/

namespace ExecutionNode.Engine

/-- Why ancestors could not be fetched. -/
inductive BackwardSyncError where
  /-- No peer has them. -/
  | noPeers (hash : Hash)
  /-- What was fetched does not lead to a known block. -/
  | disconnected
  /-- It was given up. -/
  | aborted
  /-- The node failed. -/
  | fault (f : Fault)
deriving DecidableEq

/-- The wording of the error. -/
def BackwardSyncError.message : BackwardSyncError → String
  | noPeers hash => "no peer could serve ancestors of " ++ hash.text
  | disconnected => "downloaded chain does not connect to the local chain"
  | aborted => "backward sync aborted"
  | fault f => f.text

end ExecutionNode.Engine
