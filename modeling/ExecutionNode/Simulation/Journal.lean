import ExecutionNode.Json.Printer
import ExecutionNode.Sync.Synchronizer

/-!
# How calls are written down

The journal of a simulation has a line for each call to a collaborator: who was called, for what,
and with which block.  A notice is written as the name of the listener and what it was told.
-/

namespace ExecutionNode.Sync

/-- A status as a value: its three numbers, as decimal texts. -/
def Status.toJson (s : Status) : Json :=
  .arr ([s.starting, s.current, s.highest].map fun n => .str (toString n))

/-- News as a value. -/
def News.toJson : News → Json
  | status s => .ofOption Status.toJson s
  | inSync b => .bool b

/-- The part of a line that names the block at which an import begins. -/
def startText : Option BlockId → String
  | none => "genesis"
  | some b => b.text

/-- The line of a call; the state knows the names of its listeners. Questions about the end of
the download, changes of the progress and the beginning of full sync have no line. Calls to the
selector have one if it is watched. -/
def Call.line? (watchesSelector : Bool) (s : State) : Call → Option String
  | notify n =>
    some (((s.listeners[n.listener]?.map (·.name)).getD "") ++ ": " ++ n.news.toJson.render)
  | change _ => none
  | selectPivot => if watchesSelector then some "selector.select" else none
  | announceToSelector _ => if watchesSelector then some "selector.forkchoice" else none
  | closeSelector => if watchesSelector then some "selector.close" else none
  | readHeads count => some s!"peers.heads {count}"
  | fetchHeader (.number n) => some s!"peers.header_by_number {n}"
  | fetchHeader (.hash h) => some ("peers.header_by_hash " ++ h.text)
  | loadPivot => some "store.load"
  | savePivot pivot => some s!"store.save {pivot.number}"
  | deletePivot => some "store.delete"
  | importToPivot start pivot =>
    some ("chain.import_to_pivot " ++ startText start ++ " -> " ++ toString pivot.number)
  | downloadState pivot .nodes => some s!"state.download {pivot.number} TrieNodes"
  | downloadState pivot .ranges => some s!"state.download {pivot.number} Snap"
  | startFullSync => none
  | importBatch => some "chain.import_next_batch"
  | anchor pivot => some s!"archive.set {pivot.number}"
  | enableFallback => some "archive.fallback"
  | consultTermination _ => none
  | startPruner => some "pruner.start"
  | stopPruner => some "pruner.stop"
  | awaitPruner => some "pruner.await_stop"
  | startPropagation => some "propagation.start"
  | stopPropagation => some "propagation.stop"
  | announceToPropagation state => some ("propagation.forkchoice " ++ state.head.text)

end ExecutionNode.Sync
