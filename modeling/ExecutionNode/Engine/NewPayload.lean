import ExecutionNode.Engine

/-!
# Judging a payload

A payload is judged in stages, and each stage may end the matter.

1. A payload that is no block is answered by its error; only broken transactions make the engine
   ask for the latest valid ancestor.
2. A block that failed before is answered from its record.
3. A stored block is valid.
4. While the initial sync runs, nothing more is said.
5. A block without a stored parent goes to backward sync.
6. The resolver tells the descent and the latest valid ancestor; both are asked before the
   timestamps are compared.
7. A block that is executed and fails is recorded, as is one that does not descend from the
   terminal block.

A fault ends the call with an error and leaves no record.
-/

namespace ExecutionNode.Engine

/-- The error text for a block that is not younger than its parent. -/
def notYounger : String := "block timestamp not greater than parent"

/-- The error text for a block on the wrong side of the terminal block. -/
def notDescended (hash : Hash) : String :=
  hash.text ++ " did not descend from terminal block"

/-- The answer to a payload that is no block. -/
def malformed (e : Engine) (a : Answers) (parentHash : Hash) (error : Payload.ConversionError) :
    Reply CallError PayloadStatus :=
  match error with
  | .blockHash .. => e.answer .invalidBlockHash
  | .transaction _ =>
    (e.reading (a.latestValidByHash parentHash) fun ancestor =>
      e.answer (.invalid ancestor (some error.message))).after [.askLatestValidByHash parentHash]
  | _ => e.answer (.invalid none (some error.message))

/-- Has a block executed whose latest valid ancestor is known. -/
def execute (e : Engine) (a : Answers) (block : Block) (ancestor : Hash) :
    Reply CallError PayloadStatus :=
  let reply : Reply CallError PayloadStatus :=
    match a.process block with
    | .error f => e.fail (.internal f)
    | .ok (.fault f) => e.fail (.internal f)
    | .ok (.success _) => e.answer (.valid block.hash)
    | .ok (.failure reason) =>
      e.answerRecording ⟨block.id, some ancestor⟩ (.invalid (some ancestor) (some reason))
  reply.after [.process block]

/-- Decides by timestamps, descent and ancestor whether a block is executed. -/
def judge (e : Engine) (a : Answers) (block : Block) (parent : SealedHeader) (descends : Bool)
    (ancestor : Option Hash) : Reply CallError PayloadStatus :=
  if block.header.header.timestamp ≤ parent.header.timestamp then
    e.answer (.invalid (if descends then ancestor else some (.zero 32)) (some notYounger))
  else if descends then
    match ancestor with
    | none => e.answer .accepted
    | some ancestor => e.execute a block ancestor
  else
    e.answerRecording ⟨block.id, none⟩ (.invalid (some (.zero 32)) (some (notDescended block.hash)))

/-- Asks the resolver about a block whose parent is stored. -/
def resolve (e : Engine) (a : Answers) (block : Block) (parent : SealedHeader) :
    Reply CallError PayloadStatus :=
  (e.reading (a.descends block.header) fun descends =>
    (e.reading (a.latestValid block.header) fun ancestor =>
      e.judge a block parent descends ancestor).after [.askLatestValid block.header]).after
    [.askDescends block.header]

/-- Looks for the parent of a block that is not stored. -/
def findParent (e : Engine) (a : Answers) (block : Block) : Reply CallError PayloadStatus :=
  let parentHash := block.header.header.parentHash
  (e.reading (a.header parentHash) fun
    | none => (e.answer .syncing).after [.append block]
    | some parent => e.resolve a block parent).after [.readHeader parentHash]

/-- Judges a block that is not recorded as bad. -/
def admission (e : Engine) (a : Answers) (block : Block) : Reply CallError PayloadStatus :=
  (e.reading (a.block block.hash) fun
    | some _ => e.answer (.valid block.hash)
    | none =>
      let reply : Reply CallError PayloadStatus :=
        if a.syncing then e.answer .syncing else e.findParent a block
      reply.after [.askSyncing]).after [.readBlock block.hash]

/-- Judges a payload. -/
def judgePayload (e : Engine) (a : Answers) (payload : Payload) : Reply CallError PayloadStatus :=
  match payload.toBlock e.maxExtraData with
  | .error error => e.malformed a payload.parentHash error
  | .ok block =>
    match e.badBlocks.status? block.hash with
    | some status => e.answer status
    | none => e.admission a block

/-- What is counted for the outcome of a payload. -/
def newPayloadCounter : Except CallError PayloadStatus → Counter
  | .ok status => .newPayload status.verdict.name
  | .error _ => .newPayloadError

/-- Handles a new payload: signals the call, judges the payload and counts the outcome. -/
def newPayload (e : Engine) (a : Answers) (payload : Payload) : Reply CallError PayloadStatus :=
  let reply := e.judgePayload a payload
  (reply.after [.signal]).followedBy [.count (newPayloadCounter reply.result)]

end ExecutionNode.Engine
