import ExecutionNode.Engine.BadBlocks
import ExecutionNode.Fault
import ExecutionNode.Forkchoice

/-!
# The engine and what it drives

The engine judges payloads and forkchoice states of the consensus layer.  What it needs to know
it asks of its surroundings: the block store, a resolver of ancestors, the block processor, the
synchronization and the payload builder.  `Answers` holds what they say during one call; each of
them is asked at most once in a call.  `Call` names everything the engine does to the world
outside, so that a call is a function from answers to a `Reply`: a result, the records of bad
blocks afterwards, and the calls in their order.
-/

namespace ExecutionNode

/-- What executing a block produced. -/
structure Engine.Outputs where
  /-- The gas that all transactions used. -/
  gasUsed : UInt64
  /-- The root over the accounts afterwards. -/
  stateRoot : Hash
deriving DecidableEq

/-- What the block processor says about a block. -/
inductive Engine.Processing where
  /-- The block was executed and imported. -/
  | success (outputs : Outputs)
  /-- The block is wrong. -/
  | failure (reason : String)
  /-- The node failed. -/
  | fault (f : Fault)
deriving DecidableEq

/-- Why no payload is being built. -/
inductive Engine.BuildError where
  /-- The payload would not be younger than its parent. -/
  | invalidTimestamp (parent attributes : UInt64)
  /-- The builder refused. -/
  | failed (reason : String)
deriving DecidableEq

/-- The wording of the error. -/
def Engine.BuildError.message : Engine.BuildError → String
  | invalidTimestamp parent attributes =>
    s!"payload attributes timestamp {attributes} is not greater than parent timestamp {parent}"
  | failed reason => s!"payload builder failed: {reason}"

namespace Engine

/-- What the surroundings say during one call. -/
structure Answers where
  /-- The stored block of a hash. -/
  block : Hash → Except ReadError (Option Block)
  /-- The stored header of a hash. -/
  header : Hash → Except ReadError (Option SealedHeader)
  /-- Whether the initial sync is still running. -/
  syncing : Bool
  /-- Whether a header descends from the terminal block. -/
  descends : SealedHeader → Except ReadError Bool
  /-- The latest valid ancestor of a header. -/
  latestValid : SealedHeader → Except ReadError (Option Hash)
  /-- The latest valid block at or before a hash. -/
  latestValidByHash : Hash → Except ReadError (Option Hash)
  /-- The outcome of executing a block; a fault may come in either form. -/
  process : Block → Except Fault Processing
  /-- The name under which a payload is being built. -/
  startPayload : Hash → PayloadAttributes → Except BuildError PayloadId
  /-- The payload that was built under a name. -/
  builtPayload : PayloadId → Option BuiltPayload

/-- The versions of the engine's methods. -/
inductive Version where
  /-- Without withdrawals. -/
  | v1
  /-- With withdrawals. -/
  | v2
deriving DecidableEq

/-- The methods whose latency is measured. -/
inductive Method where
  /-- A new payload. -/
  | newPayload (version : Version)
  /-- A forkchoice state. -/
  | forkchoiceUpdated (version : Version)
  /-- A built payload. -/
  | getPayload (version : Version)
deriving DecidableEq

/-- What is counted. -/
inductive Counter where
  /-- A payload was answered with a verdict. -/
  | newPayload (verdict : String)
  /-- A payload could not be answered. -/
  | newPayloadError
  /-- A forkchoice state was answered with a verdict. -/
  | forkchoice (verdict : String)
  /-- The latency of a method was recorded. -/
  | latency (method : Method)
deriving DecidableEq

/-- What the engine does to the world outside. -/
inductive Call where
  /-- It signals that the consensus layer called. -/
  | signal
  /-- It reads a block. -/
  | readBlock (hash : Hash)
  /-- It reads a header. -/
  | readHeader (hash : Hash)
  /-- It asks whether the initial sync is still running. -/
  | askSyncing
  /-- It asks whether a header descends from the terminal block. -/
  | askDescends (header : SealedHeader)
  /-- It asks for the latest valid ancestor of a header. -/
  | askLatestValid (header : SealedHeader)
  /-- It asks for the latest valid block at or before a hash. -/
  | askLatestValidByHash (hash : Hash)
  /-- It has a block executed. -/
  | process (block : Block)
  /-- It hands a block without a parent to backward sync. -/
  | append (block : Block)
  /-- It has the chain up to a hash fetched. -/
  | syncToHead (hash : Hash)
  /-- It passes a forkchoice state on before looking at it. -/
  | announce (state : ForkchoiceState)
  /-- It has a payload built. -/
  | startPayload (parent : Hash) (attributes : PayloadAttributes)
  /-- It fetches a built payload. -/
  | fetchPayload (id : PayloadId)
  /-- It counts. -/
  | count (counter : Counter)
deriving DecidableEq

/-- Why a call has no answer. The payload is never the cause. -/
inductive CallError where
  /-- Executing a block ran into a fault. -/
  | internal (f : Fault)
  /-- The block store or the resolver failed. -/
  | provider (e : ReadError)
deriving DecidableEq

/-- The wording of the error. -/
def CallError.message : CallError → String
  | internal f => f.text
  | provider e => e.message

end Engine

/-- The engine. -/
structure Engine where
  /-- The blocks that failed. -/
  badBlocks : Engine.BadBlocks
  /-- How long the free bytes of a block may be. -/
  maxExtraData : Nat
  /-- Whether forkchoice states are passed on. -/
  announces : Bool
  /-- Whether payloads can be built. -/
  buildsPayloads : Bool
deriving DecidableEq

namespace Engine

/-- What a call comes to. -/
structure Reply (ε α : Type) where
  /-- The answer. -/
  result : Except ε α
  /-- The blocks that failed, afterwards. -/
  badBlocks : BadBlocks
  /-- What was done to the world outside, in order. -/
  calls : List Call

namespace Reply

variable {ε α : Type}

/-- The reply with earlier calls in front. -/
def after (r : Reply ε α) (calls : List Call) : Reply ε α := { r with calls := calls ++ r.calls }

/-- The reply with later calls at the end. -/
def followedBy (r : Reply ε α) (calls : List Call) : Reply ε α :=
  { r with calls := r.calls ++ calls }

/-- The reply with another form of its result. -/
def mapResult {ε' β : Type} (f : Except ε α → Except ε' β) (r : Reply ε α) : Reply ε' β :=
  ⟨f r.result, r.badBlocks, r.calls⟩

end Reply

variable {ε α β : Type}

/-- The engine after a reply. -/
def afterReply (e : Engine) (r : Reply ε α) : Engine := { e with badBlocks := r.badBlocks }

/-- An answer that changes no record. -/
def answer (e : Engine) (a : α) : Reply ε α := ⟨.ok a, e.badBlocks, []⟩

/-- A failure that changes no record. -/
def fail (e : Engine) (error : ε) : Reply ε α := ⟨.error error, e.badBlocks, []⟩

/-- An answer that records a block. -/
def answerRecording (e : Engine) (b : BadBlock) (a : α) : Reply ε α :=
  ⟨.ok a, e.badBlocks.record b, []⟩

/-- Goes on with what was read, or fails. -/
def reading (e : Engine) (read : Except ReadError α) (go : α → Reply CallError β) :
    Reply CallError β :=
  match read with
  | .error error => e.fail (.provider error)
  | .ok a => go a

end Engine

end ExecutionNode
