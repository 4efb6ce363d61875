import ExecutionNode.Config

/-!
# Progress of the synchronization

What is recorded of how far the node is: whether the initial phase is over, whether the point at
which to stop was reached, and three block numbers.  A node is in sync when the initial phase is
over and its head is at most a tolerance behind the best block that any peer announced.
-/

namespace ExecutionNode.Sync

/-- The progress of a node that is not in sync. -/
structure Status where
  /-- The local head when the current synchronization began. -/
  starting : UInt64
  /-- The local head. -/
  current : UInt64
  /-- The best block known. -/
  highest : UInt64
deriving DecidableEq

/-- How far the node is. -/
structure Progress where
  /-- Whether the initial phase is over. -/
  initialDone : Bool := false
  /-- Whether the point at which to stop was reached; unknown at first. -/
  terminal : Option Bool := none
  /-- The best block that a peer announced. -/
  best : UInt64 := 0
  /-- The local head. -/
  localHead : UInt64 := 0
  /-- The local head when the current synchronization began. -/
  starting : UInt64 := 0
deriving DecidableEq

/-- A change of the progress. -/
inductive Progress.Change where
  /-- A new best block. -/
  | best (height : UInt64)
  /-- A new local head. -/
  | localHead (head : UInt64)
  /-- The initial phase is over. -/
  | initialDone
  /-- The initial phase begins again. -/
  | restart
  /-- Whether the point at which to stop was reached. -/
  | terminal (reached : Bool)
deriving DecidableEq

namespace Progress

/-- The progress after a change. -/
def after (p : Progress) : Change → Progress
  | .best height => { p with best := height }
  | .localHead head => { p with localHead := head }
  | .initialDone => { p with initialDone := true }
  | .restart => { p with initialDone := false, terminal := none, starting := p.localHead }
  | .terminal reached => { p with terminal := some reached }

/-- Whether the head is at most the tolerance behind. A head that is ahead counts as level. -/
def inSync (p : Progress) (tolerance : UInt64) : Bool :=
  p.initialDone && p.best.toNat - p.localHead.toNat ≤ tolerance.toNat

/-- The status, if the node is not in sync. -/
def status (p : Progress) (tolerance : UInt64) : Option Status :=
  if p.inSync tolerance then none
  else some ⟨p.starting, p.localHead, max p.best p.localHead⟩

end Progress

end ExecutionNode.Sync
