import ExecutionNode.Header.Json
import ExecutionNode.Json.Overlay
import ExecutionNode.Payload.Json
import ExecutionNode.Simulation.Script
import ExecutionNode.Simulation.Surroundings

/-!
# How simulations are written down

Simulations are described in JSON.  A field that is missing or null counts as not given.  Words
may be numbers or decimal texts, headers and payloads are given by their differences from a usual
one, and whatever fails is given by its kind and a text.
-/

namespace ExecutionNode.Simulation

open Sync

/-! ### Fields -/

/-- A field that is given. -/
def given? (j : Json) (name : String) : Option Json :=
  match j.field? name with
  | some .null => none
  | other => other

/-- A natural number, as a number or a decimal text. -/
def natural? : Json.Decoder Nat
  | .num (.natural n) => some n
  | .str s => s.toNat?
  | _ => none

/-- A word of 64 bits, as a number or a decimal text. -/
def word? : Json.Decoder UInt64 := fun j => (natural? j).map UInt64.ofNat

/-- A truth value. -/
def flag? : Json.Decoder Bool
  | .bool b => some b
  | _ => none

/-- A hash. -/
def hash? : Json.Decoder Hash := Json.fixed? 32

/-- A natural number in a field. -/
def naturalIn? (j : Json) (name : String) : Option Nat := given? j name >>= natural?

/-- A word in a field. -/
def wordIn? (j : Json) (name : String) : Option UInt64 := given? j name >>= word?

/-- A text in a field. -/
def textIn? (j : Json) (name : String) : Option String := given? j name >>= Json.string?

/-- A truth value in a field; false if it is not given. -/
def flagIn (j : Json) (name : String) : Bool := (given? j name >>= flag?).getD false

/-- A hash in a field; zero if it is not given. -/
def hashIn (j : Json) (name : String) : Hash := (given? j name >>= hash?).getD (.zero 32)

/-- Milliseconds in a field. -/
def durationIn? (j : Json) (name : String) : Option Duration :=
  (wordIn? j name).map .milliseconds

/-- The items in a field; none if it is not given. -/
def itemsIn (j : Json) (name : String) : List Json :=
  match given? j name with
  | some (.arr items) => items
  | _ => []

/-- What a field holds, if it is given; but it must be readable. -/
def optionalIn? {α : Type} (j : Json) (name : String) (decoder : Json.Decoder α) :
    Option (Option α) :=
  match given? j name with
  | none => some none
  | some value => (decoder value).map some

/-! ### Headers, payloads and forkchoice states -/

/-- A header, given by its differences from the blank one. -/
def header? : Json.Decoder Header := fun j =>
  Header.ofJson? (.obj (Json.overlay Header.blank.jsonFields j))

/-- A header with its own hash. -/
def sealedHeader? : Json.Decoder SealedHeader := fun j => (header? j).map Header.sealed

/-- The payload from which others differ. -/
def usualPayload : Payload where
  parentHash := .zero 32
  feeRecipient := .zero 20
  stateRoot := .zero 32
  receiptsRoot := .zero 32
  logsBloom := .zero 256
  prevRandao := .zero 32
  blockNumber := 1
  gasLimit := 30000000
  gasUsed := 0
  timestamp := 100
  extraData := some []
  baseFeePerGas := 7
  blockHash := .zero 32
  transactions := []
  withdrawals := none

/-- A payload in full, given by its differences from the usual one. A dash removes a field, and
the right hash is declared where none is given. -/
def payloadDraft (j : Json) : Json :=
  let base := usualPayload.jsonFields.filter (·.1 ≠ "blockHash")
  let removed : Json → Bool
    | .str s => s = "-"
    | _ => false
  let fields := (Json.overlay base j).filter fun f => !removed f.2
  if (j.field? "blockHash").isSome then .obj fields
  else
    let draft := fields ++ [("blockHash", Json.ofFixed (.zero 32 : Hash))]
    let computed := ((Payload.ofJson? (.obj draft)).map (·.header.hash)).getD (.zero 32)
    .obj (fields ++ [("blockHash", .ofFixed computed)])

/-- A forkchoice state; a hash that is not given is zero. -/
def forkchoice (j : Json) : ForkchoiceState :=
  ⟨hashIn j "head", hashIn j "safe", hashIn j "finalized"⟩

/-! ### Failures -/

/-- A fault. -/
def fault? : Json.Decoder Fault := fun j => do
  let kind ← textIn? j "kind" >>= FaultKind.ofName?
  some ⟨kind, (textIn? j "message").getD ""⟩

/-- An error of the block store. -/
def readError? : Json.Decoder ReadError := fun j =>
  match j.field? "missing_body" with
  | some h => (hash? h).map .missingBody
  | none => (fault? j).map .fault

/-- An error of a run. -/
def runError? : Json.Decoder RunError := fun j =>
  let message := (textIn? j "message").getD ""
  match (textIn? j "kind").getD "" with
  | "chain" => some (.chainDownload message)
  | "state" => some (.stateDownload message)
  | "stopped" => some .stopped
  | "task" => some (.task message)
  | "fault" => (given? j "fault" >>= fault?).map .fault
  | "below" =>
    some (.pivotBelowCheckpoint ((wordIn? j "pivot").getD 0) ((wordIn? j "checkpoint").getD 0))
  | "pivot" => some (.pivot .noSafeBlock)
  | _ => none

/-- How a request fails. -/
def failure? : Json.Decoder Failure := fun j =>
  if textIn? j "kind" = some "panic" then some .panic else (runError? j).map .error

/-! ### Selectors -/

/-- A selector of pivot blocks, and how long it waits between two looks. -/
def selector (j : Json) : Selector × Duration :=
  let timeout := (durationIn? j "timeout_ms").getD (.milliseconds 20)
  let selector : Selector :=
    if textIn? j "kind" = some "safe" then .safeBlock ⟨none, timeout⟩
    else .peers ⟨(wordIn? j "distance").getD 50, (naturalIn? j "min_peers").getD 3, timeout⟩
  (selector, (durationIn? j "poll_ms").getD Selector.defaultPollInterval)

/-! ### What collaborators will answer -/

/-- Sets one field of a script. Headers and batches are added to those that are there. -/
def Script.set? (s : Script) (name : String) (value : Json) : Option Script :=
  let orNull {α : Type} (d : Json.Decoder α) : Option (Option α) := Json.nullable? d value
  match name with
  | "heads" => (Json.list? (Json.list? word?) value).map fun heads => { s with heads }
  | "headers" =>
    (Json.list? sealedHeader? value).map fun more => { s with headers := s.headers ++ more }
  | "batches" => (Json.list? word? value).map fun more => { s with batches := s.batches ++ more }
  | "import_error" => (orNull failure?).map fun f => { s with importFailure := f }
  | "state_error" => (orNull failure?).map fun f => { s with stateFailure := f }
  | "batch_error" => (orNull failure?).map fun f => { s with batchFailure := f }
  | "load" => (orNull fault?).map fun f => { s with loadFault := f }
  | "save" => (orNull fault?).map fun f => { s with saveFault := f }
  | "delete" => (orNull fault?).map fun f => { s with deleteFault := f }
  | "archive" => (orNull fault?).map fun f => { s with anchorFault := f }
  | "peers" => (orNull fault?).map fun f => { s with peersFault := f }
  | "persisted" => (orNull sealedHeader?).map fun p => { s with kept := p }
  | "terminate" => (flag? value).map fun b => { s with isOver := b }
  | "terminate_at_end" => (flag? value).map fun b => { s with overAtEnd := b }
  | "fallback" => (flag? value).map fun b => { s with fallback := b }
  | "propagating" => (flag? value).map fun b => { s with propagating := b }
  | "block_import" => (flag? value).map fun b => { s with holdsImport := b }
  | "block_state" => (flag? value).map fun b => { s with holdsState := b }
  | "block_batch" => (flag? value).map fun b => { s with holdsBatch := b }
  | _ => some s

/-- Sets the given fields of a script. -/
def Script.adjust? (s : Script) : Json → Option Script
  | .obj fields => fields.foldlM (fun s (name, value) => s.set? name value) s
  | _ => some s

/-- What the processor says: a failure, a fault in either form, or what executing produced. -/
def outcome? : Json.Decoder (Except Fault Engine.Processing) := fun j =>
  if let some reason := textIn? j "failure" then some (.ok (.failure reason))
  else if let some f := given? j "fault" then (fault? f).map fun f => .ok (.fault f)
  else if let some f := given? j "raise" then (fault? f).map .error
  else some (.ok (.success ⟨(wordIn? j "gas_used").getD 0, hashIn j "state_root"⟩))

/-- Sets one field of the surroundings of an engine. -/
def Surroundings.set? (s : Surroundings) (name : String) (value : Json) : Option Surroundings :=
  let orNull {α : Type} (d : Json.Decoder α) : Option (Option α) := Json.nullable? d value
  match name with
  | "syncing" => (flag? value).map fun b => { s with syncing := b }
  | "lva" => (orNull hash?).map fun h => { s with latestValid := h }
  | "lva_by_hash" => (orNull hash?).map fun h => { s with latestValidByHash := h }
  | "descends" => (flag? value).map fun b => { s with descends := b }
  | "provider_fault" => (orNull readError?).map fun e => { s with storeError := e }
  | "resolver_fault" => (orNull readError?).map fun e => { s with resolverError := e }
  | "sticky_fault" =>
    (orNull fault?).map fun f => { s with lastingFault := f.or s.lastingFault }
  | "builder_fail" => (orNull Json.string?).map fun f => { s with builderFailure := f }
  | "fees" => (Json.uint256? value).map fun f => { s with fees := f }
  | "base_fee" => (orNull word?).map fun f => { s with baseFee := f }
  | "body" => do
    let raws ← Json.list? Json.bytes? value
    let body ← (Transaction.Envelope.decodeAll raws).toOption
    some { s with body }
  | "outcome" => (outcome? value).map fun outcome => { s with outcome }
  | _ => some s

/-- Sets the given fields of the surroundings. -/
def Surroundings.adjust? (s : Surroundings) : Json → Option Surroundings
  | .obj fields => fields.foldlM (fun s (name, value) => s.set? name value) s
  | _ => some s

end ExecutionNode.Simulation
