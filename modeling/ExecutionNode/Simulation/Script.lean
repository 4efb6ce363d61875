import ExecutionNode.Sync.Collaborators

/-!
# Scripted collaborators of the synchronization

A simulation says in advance what the collaborators of the synchronization answer.
`Script.replies` are the answers of those who answer at once, `Script.importedChain` and its like
those of the others, and `Script.observe` is what a call changes about later answers: a pivot
block that was kept is found again, and block propagation knows whether it is on.
-/

namespace ExecutionNode.Simulation

open Sync

/-- What the collaborators will answer. -/
structure Script where
  /-- The heads of the peers, look after look; the last ones stay. -/
  heads : List (List UInt64) := []
  /-- The headers that peers have. -/
  headers : List SealedHeader := []
  /-- The heads to which the next batches of blocks lead. -/
  batches : List UInt64 := []
  /-- How an import of the chain up to a pivot block fails. -/
  importFailure : Option Failure := none
  /-- How a download of the world state fails. -/
  stateFailure : Option Failure := none
  /-- How an import of new blocks fails. -/
  batchFailure : Option Failure := none
  /-- Why the kept pivot block cannot be read. -/
  loadFault : Option Fault := none
  /-- Why no pivot block can be kept. -/
  saveFault : Option Fault := none
  /-- Why the kept pivot block cannot be forgotten. -/
  deleteFault : Option Fault := none
  /-- Why the world state cannot be made the current one. -/
  anchorFault : Option Fault := none
  /-- Why peers cannot be asked for headers. -/
  peersFault : Option Fault := none
  /-- The kept pivot block. -/
  kept : Option SealedHeader := none
  /-- Whether the download should end. -/
  isOver : Bool := false
  /-- Whether the download should end once no batch is left. -/
  overAtEnd : Bool := false
  /-- Whether missing nodes can be fetched on demand. -/
  fallback : Bool := true
  /-- Whether block propagation is on. -/
  propagating : Bool := false
  /-- Whether imports up to a pivot block are held up. -/
  holdsImport : Bool := false
  /-- Whether downloads of the world state are held up. -/
  holdsState : Bool := false
  /-- Whether imports of new blocks are held up. -/
  holdsBatch : Bool := false

namespace Script

/-- A value, unless there is a fault. -/
def barring {α : Type} (fault : Option Fault) (value : α) : Except Fault α :=
  match fault with
  | some f => .error f
  | none => .ok value

/-- The answers of those who answer at once. -/
def replies (s : Script) : Replies where
  propagating := s.propagating
  load := barring s.loadFault s.kept
  save := barring s.saveFault ()
  delete := barring s.deleteFault ()
  anchor := barring s.anchorFault ()
  supportsFallback := s.fallback
  importRefused := if s.holdsImport then none else s.importFailure
  overAfterCatchUp := s.isOver
  overBeforeBatch := s.isOver
  overAtEnd := s.isOver

/-- How the waiting for a request without a value ends. -/
def ending (failure : Option Failure) (event : Except RunError Unit → Event) : Event :=
  match failure with
  | none => event (.ok ())
  | some (.error e) => event (.error e)
  | some .panic => .panicked

/-- How an import of the chain ends, if it is not held up. -/
def importedChain (s : Script) : Option Event :=
  if s.holdsImport then none else some (ending s.importFailure .chainImported)

/-- How a download of the world state ends, if it is not held up. -/
def downloadedState (s : Script) : Option Event :=
  if s.holdsState then none else some (ending s.stateFailure .stateDownloaded)

/-- How an import of new blocks ends, if it is not held up, and what the script says then. -/
def importedBatch (s : Script) : Option (Event × Script) :=
  if s.holdsBatch then none
  else
    match s.batchFailure with
    | some (.error e) => some (.batchImported (.error e), s)
    | some .panic => some (.panicked, s)
    | none =>
      let rest := s.batches.tail
      some (.batchImported (.ok s.batches.head?),
        { s with batches := rest, isOver := s.isOver || (s.overAtEnd && rest.isEmpty) })

/-- The heads that the next look sees, and what the script says then. -/
def nextHeads (s : Script) : List UInt64 × Script :=
  match s.heads with
  | [] => ([], s)
  | [heads] => (heads, s)
  | heads :: rest => (heads, { s with heads := rest })

/-- The answer to a query for a header. -/
def header (s : Script) (query : HeaderQuery) : Except Fault (Option SealedHeader) :=
  barring s.peersFault (s.headers.find? fun h =>
    match query with
    | .number n => h.number = n
    | .hash hash => h.hash = hash)

/-- Takes note of a call. -/
def observe (s : Script) : Call → Script
  | .savePivot pivot => if s.saveFault.isSome then s else { s with kept := some pivot }
  | .deletePivot => if s.deleteFault.isSome then s else { s with kept := none }
  | .startPropagation => { s with propagating := true }
  | .stopPropagation => { s with propagating := false }
  | _ => s

end Script

end ExecutionNode.Simulation
