import ExecutionNode.Significant
import ExecutionNode.Sync.Progress

/-!
# The sync state and its listeners

The sync state is the progress together with those who want to hear of it.  There are two kinds
of listeners: one hears the status whenever it changed, the other hears whenever the node came
in sync or fell behind, at a tolerance of its own.  Both kinds draw their numbers from one
series, so that no number is given twice.

A listener may act on the state from inside a notice.  Its reactions are given in advance: the
first list of operations runs inside its first notice, and so on.  An update notifies those
listeners that were subscribed when the update looked at them, with the news of that moment;
whatever a listener does in between comes to them as further notices.
-/

namespace ExecutionNode.Sync

/-- An operation on the sync state. -/
inductive Operation where
  /-- Changes the progress. -/
  | change (c : Progress.Change)
  /-- Subscribes a listener to the status. -/
  | subscribeStatus (name : String) (reactions : List (List Operation))
  /-- Subscribes a listener to being in sync, at a tolerance of its own. -/
  | subscribeInSync (name : String) (tolerance : Option UInt64) (reactions : List (List Operation))
  /-- Ends the subscription to the status of a number. -/
  | unsubscribeStatus (id : Nat)
  /-- Ends the subscription to being in sync of a number. -/
  | unsubscribeInSync (id : Nat)

/-- What an operation gives in return. -/
inductive Operation.Receipt where
  /-- Nothing. -/
  | done
  /-- The number of the new listener. -/
  | subscribed (id : Nat)
  /-- Whether there was a subscription to end. -/
  | ended (found : Bool)
deriving DecidableEq

/-! ### How deep reactions can nest -/

mutual

/-- The number of reactions that an operation brings along. -/
def Operation.weight : Operation → Nat
  | .change _ => 0
  | .subscribeStatus _ reactions => Operation.reactionsWeight reactions
  | .subscribeInSync _ _ reactions => Operation.reactionsWeight reactions
  | .unsubscribeStatus _ => 0
  | .unsubscribeInSync _ => 0

/-- The number of reactions that operations bring along. -/
def Operation.listWeight : List Operation → Nat
  | [] => 0
  | op :: ops => op.weight + Operation.listWeight ops

/-- The number of reactions in a list of them, with those that they bring along. -/
def Operation.reactionsWeight : List (List Operation) → Nat
  | [] => 0
  | ops :: rest => 1 + Operation.listWeight ops + Operation.reactionsWeight rest

end

/-- Someone who subscribed. -/
structure Listener where
  /-- The name under which the listener is known. -/
  name : String
  /-- What the listener will do inside its next notices. -/
  reactions : List (List Operation)

/-- What a listener is told. -/
inductive News where
  /-- The new status; none if the node is in sync. -/
  | status (status : Option Status)
  /-- Whether the node is in sync. -/
  | inSync (inSync : Bool)
deriving DecidableEq

/-- News that was given to a listener. -/
structure Notice where
  /-- The number of the listener. -/
  listener : Nat
  /-- What it was told. -/
  news : News
deriving DecidableEq

/-- A subscription to being in sync. -/
structure InSyncSubscription where
  /-- The number of the listener. -/
  id : Nat
  /-- Its tolerance. -/
  tolerance : UInt64
  /-- What the listener believes. -/
  inSync : Bool
deriving DecidableEq

/-- The sync state. -/
structure State where
  /-- How far the node is. -/
  progress : Progress
  /-- How far the head may be behind. -/
  tolerance : UInt64
  /-- Everyone who ever subscribed; a listener's number is its place. -/
  listeners : List Listener
  /-- The numbers of those who are subscribed to the status, in ascending order. -/
  statusSubscriptions : List Nat
  /-- The subscriptions to being in sync, in ascending order of the numbers. -/
  inSyncSubscriptions : List InSyncSubscription
  /-- Whether the progress was ever changed, and so measured. -/
  measured : Bool
  /-- The notices given so far. -/
  notices : List Notice

namespace State

/-- The tolerance that holds where none is set. -/
def defaultTolerance : UInt64 := 5

/-- The state of a node that has not begun. -/
def initial (tolerance : UInt64) : State where
  progress := {}
  tolerance := tolerance
  listeners := []
  statusSubscriptions := []
  inSyncSubscriptions := []
  measured := false
  notices := []

/-- The status, if the node is not in sync. -/
def status (s : State) : Option Status := s.progress.status s.tolerance

/-- Whether the node is in sync. -/
def inSync (s : State) : Bool := s.progress.inSync s.tolerance

/-- Whether the initial phase runs. -/
def isSyncing (s : State) : Bool := !s.progress.initialDone

/-! ### Operations -/

/-- Gives a notice and has the listener react. -/
def deliver (react : Operation → State → State) (s : State) (n : Notice) : State :=
  let s : State := { s with notices := s.notices ++ [n] }
  match s.listeners[n.listener]? with
  | some ⟨name, ops :: rest⟩ =>
    ops.foldl (fun s op => react op s)
      { s with listeners := s.listeners.set n.listener ⟨name, rest⟩ }
  | _ => s

/-- Tells all who are subscribed the status. -/
def deliverStatus (react : Operation → State → State) (s : State) (news : Option Status) : State :=
  s.statusSubscriptions.foldl (fun s id => s.deliver react ⟨id, .status news⟩) s

/-- Tells those who are subscribed to being in sync and believe otherwise. -/
def deliverInSync (react : Operation → State → State) (s : State) (p : Progress) : State :=
  let mistaken := s.inSyncSubscriptions.filter fun sub => sub.inSync != p.inSync sub.tolerance
  let corrected := s.inSyncSubscriptions.map fun sub =>
    { sub with inSync := p.inSync sub.tolerance }
  mistaken.foldl (fun s sub => s.deliver react ⟨sub.id, .inSync (p.inSync sub.tolerance)⟩)
    { s with inSyncSubscriptions := corrected }

/-- Changes the progress and tells the listeners: first those of the status, then those of being
in sync. -/
def update (react : Operation → State → State) (s : State) (c : Progress.Change) : State :=
  let p := s.progress.after c
  let changed : State := { s with progress := p, measured := true }
  let told :=
    if p.status s.tolerance = s.status then changed
    else changed.deliverStatus react (p.status s.tolerance)
  told.deliverInSync react p

/-- Performs an operation, with a way to perform those of the listeners. -/
def step (react : Operation → State → State) : Operation → State → State
  | .change c, s => s.update react c
  | .subscribeStatus name reactions, s =>
    { s with
      listeners := s.listeners ++ [⟨name, reactions⟩]
      statusSubscriptions := s.statusSubscriptions ++ [s.listeners.length] }
  | .subscribeInSync name tolerance reactions, s =>
    let tolerance := tolerance.getD s.tolerance
    { s with
      listeners := s.listeners ++ [⟨name, reactions⟩]
      inSyncSubscriptions := s.inSyncSubscriptions
        ++ [⟨s.listeners.length, tolerance, s.progress.inSync tolerance⟩] }
  | .unsubscribeStatus id, s =>
    { s with statusSubscriptions := s.statusSubscriptions.filter (· ≠ id) }
  | .unsubscribeInSync id, s =>
    { s with inSyncSubscriptions := s.inSyncSubscriptions.filter (·.id ≠ id) }

/-- Performs an operation in which reactions nest at most so deep. -/
def performWithin : Nat → Operation → State → State
  | 0 => step fun _ s => s
  | depth + 1 => step (performWithin depth)

/-- The number of reactions that are still to come. -/
def pendingReactions (s : State) : Nat :=
  s.listeners.foldr (fun l sum => Operation.reactionsWeight l.reactions + sum) 0

/-- Performs an operation. Reactions nest at most as deep as there are reactions to come. -/
def perform (op : Operation) (s : State) : State :=
  performWithin (op.weight + s.pendingReactions) op s

/-- The number of the latest listener of a name. -/
def listenerOf? (s : State) (name : String) : Option Nat :=
  s.listeners.zipIdx.findRev? (·.1.name = name) |>.map (·.2)

/-- Whether the number is subscribed to the status. -/
def hearsStatus (s : State) (id : Nat) : Bool := s.statusSubscriptions.contains id

/-- Whether the number is subscribed to being in sync. -/
def hearsInSync (s : State) (id : Nat) : Bool := s.inSyncSubscriptions.any (·.id = id)

/-- What an operation gives in return when it is performed. -/
def receipt (s : State) : Operation → Operation.Receipt
  | .change _ => .done
  | .subscribeStatus .. | .subscribeInSync .. => .subscribed s.listeners.length
  | .unsubscribeStatus id => .ended (s.hearsStatus id)
  | .unsubscribeInSync id => .ended (s.hearsInSync id)

/-! ### Measures -/

/-- The measures, as soon as there are any. -/
def measures (s : State) : List (String × Nat) :=
  if s.measured then
    [("sync.best_known_block_number", significant floatBits s.progress.best.toNat),
      ("sync.in_sync", if s.inSync then 1 else 0)]
  else []

end State

end ExecutionNode.Sync
