import ExecutionNode.Engine.Api

/-!
# Simulated surroundings of an engine

A simulation sets what the surroundings of an engine answer and watches what the engine does.
`Surroundings.answers` turns the settings into the answers of one call, `Surroundings.observe`
takes note of the calls that were made.  A payload that is being built stands ready at once, as
an otherwise blank block on top of its parent.
-/

namespace ExecutionNode.Simulation

open Engine

/-- What the surroundings of an engine will answer, and what they have seen. -/
structure Surroundings where
  /-- The stored blocks. -/
  blocks : List Block
  /-- The stored headers. -/
  headers : List SealedHeader
  /-- Why every read of the store fails. -/
  storeError : Option ReadError
  /-- Why every read that gets past `storeError` fails. -/
  lastingFault : Option Fault
  /-- Why the resolver fails. -/
  resolverError : Option ReadError
  /-- Whether the initial sync runs. -/
  syncing : Bool
  /-- The latest valid ancestor of any header. -/
  latestValid : Option Hash
  /-- The latest valid block at or before any hash. -/
  latestValidByHash : Option Hash
  /-- Whether every header descends from the terminal block. -/
  descends : Bool
  /-- What the processor says about any block. -/
  outcome : Except Fault Processing
  /-- Why no payload can be built. -/
  builderFailure : Option String
  /-- What the proposer of a built payload collects. -/
  fees : U256
  /-- The base fee of a built payload. -/
  baseFee : Option UInt64
  /-- The transactions of a built payload. -/
  body : List Transaction.Envelope
  /-- The built payloads, the latest first. -/
  built : List (PayloadId × BuiltPayload)
  /-- The calls that were made. -/
  calls : List Call

namespace Surroundings

/-- Surroundings that know nothing and fail at nothing. -/
def initial (syncing : Bool) : Surroundings where
  blocks := []
  headers := []
  storeError := none
  lastingFault := none
  resolverError := none
  syncing := syncing
  latestValid := none
  latestValidByHash := none
  descends := true
  outcome := .ok (.success ⟨0, .zero 32⟩)
  builderFailure := none
  fees := 21
  baseFee := some 7
  body := []
  built := []
  calls := []

/-- Fails as the store is set to fail. -/
def stored {α : Type} (s : Surroundings) (value : α) : Except ReadError α :=
  match s.storeError, s.lastingFault with
  | some error, _ => .error error
  | none, some fault => .error (.fault fault)
  | none, none => .ok value

/-- Fails as the resolver is set to fail. -/
def resolved {α : Type} (s : Surroundings) (value : α) : Except ReadError α :=
  match s.resolverError with
  | some error => .error error
  | none => .ok value

/-- The payload that is built for a request. -/
def build (s : Surroundings) (parent : Hash) (attributes : PayloadAttributes) : BuiltPayload :=
  let header : Header :=
    { Header.blank with
      parentHash := parent
      number := 1
      timestamp := attributes.timestamp
      beneficiary := attributes.suggestedFeeRecipient
      mixHash := attributes.prevRandao
      gasLimit := 30000000
      baseFeePerGas := s.baseFee
      transactionsRoot := Transaction.root s.body
      withdrawalsRoot := attributes.withdrawals.map Withdrawal.root }
  ⟨⟨header.sealed, s.body, attributes.withdrawals⟩, s.fees⟩

/-- What the surroundings answer during one call. -/
def answers (s : Surroundings) : Answers where
  block hash := s.stored (s.blocks.find? (·.hash = hash))
  header hash := s.stored (s.headers.find? (·.hash = hash))
  syncing := s.syncing
  descends _ := s.resolved s.descends
  latestValid _ := s.resolved s.latestValid
  latestValidByHash _ := s.resolved s.latestValidByHash
  process _ := s.outcome
  startPayload parent attributes :=
    match s.builderFailure with
    | some reason => .error (.failed reason)
    | none => .ok (attributes.payloadId parent)
  builtPayload id := (s.built.find? (·.1 = id)).map (·.2)

/-- Takes note of a call. -/
def observe (s : Surroundings) (call : Call) : Surroundings :=
  let s := { s with calls := s.calls ++ [call] }
  match call with
  | .startPayload parent attributes =>
    if s.builderFailure.isSome then s
    else { s with built := (attributes.payloadId parent, s.build parent attributes) :: s.built }
  | _ => s

/-- Takes note of all calls of a reply. -/
def observeAll {ε α : Type} (s : Surroundings) (r : Reply ε α) : Surroundings :=
  r.calls.foldl observe s

/-- Stores a header. -/
def insertHeader (s : Surroundings) (h : SealedHeader) : Surroundings :=
  { s with headers := h :: s.headers }

/-- Stores a block with its header. -/
def insertBlock (s : Surroundings) (b : Block) : Surroundings :=
  { s.insertHeader b.header with blocks := b :: s.blocks }

end Surroundings

end ExecutionNode.Simulation
