import ExecutionNode.Sync.Synchronizer

/-!
# Assembling a synchronizer

A synchronizer is assembled from settings and collaborators.  The archive and the source of
blocks are always needed; ways to the head over a pivot block need more.  If the download should
end before it began there is nothing to follow, so neither full sync nor block propagation is
set up.
-/

namespace ExecutionNode.Sync

/-- Which collaborators there are. -/
structure Collaborators where
  /-- The archive of world states. -/
  worldState : Bool := true
  /-- The source of blocks. -/
  chain : Bool := true
  /-- The source of world states. -/
  stateDownloader : Bool := true
  /-- The store of the pivot block. -/
  store : Bool := true
  /-- The heads of the peers. -/
  peers : Bool := true
  /-- A selector of the pivot block, in place of the one by the heads of the peers. -/
  selector : Bool := false
  /-- Block propagation. -/
  propagation : Bool := true
  /-- The pruner. -/
  pruner : Bool := true
deriving DecidableEq

/-- The selector of the pivot block that the settings describe. -/
def PeerSelector.ofConfig (config : SyncConfig) : PeerSelector :=
  ⟨config.pivotDistance, config.minPeersForPivot.toNat, config.pivotTimeout⟩

namespace Synchronizer

/-- Fails if something is missing. -/
def require (present : Bool) (c : Component) : Except LifecycleError Unit :=
  if present then .ok () else .error (.missing c)

/-- The first downloader for catching up, if the way to the head is over a pivot block. A trusted
block matters only where the chain begins at one. -/
def firstCatchUp (config : SyncConfig) (has : Collaborators) :
    Except LifecycleError (Option CatchUp) :=
  if config.mode.isPivoted then do
    require has.stateDownloader .stateDownloader
    require has.store .store
    let checkpoint := if config.mode = .checkpoint then config.checkpoint else none
    require (config.mode != .checkpoint || checkpoint.isSome) .checkpoint
    require (has.selector || has.peers) .peers
    return some { mode := config.mode, checkpoint := checkpoint, resync := false }
  else .ok none

/-- Assembles a synchronizer around a sync state, or around a new one. The answer to whether the
download should end is given in advance. -/
def assemble (config : SyncConfig) (has : Collaborators) (isOver : Bool) (idle : Duration)
    (state : Option State) : Except LifecycleError Synchronizer := do
  require has.worldState .worldState
  require has.chain .chain
  let catchUp ← firstCatchUp config has
  return {
    book := ⟨state.getD (.initial config.tolerance), []⟩
    propagates := has.propagation && !isOver
    prunes := has.pruner
    catchUps := catchUp.toList
    fullSync :=
      if isOver then none else some { maxTrailingPeers := config.maxTrailingPeers, idle } }

end Synchronizer

end ExecutionNode.Sync
