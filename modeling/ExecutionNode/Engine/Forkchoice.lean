import ExecutionNode.Engine

/-!
# Following a forkchoice state

A state with a head is passed on before anything is asked.  The head is then answered from its
record if it failed before, with `syncing` while the initial sync runs or while it is unknown,
and with `valid` otherwise.  A payload is built on a valid head if attributes came along that
make it younger than the head; a refusal of the builder changes nothing about the answer.
-/

namespace ExecutionNode.Engine

/-- The error text for a state without a head. -/
def zeroHead : String := "Received zero hash as forkchoice head"

/-- Has a payload built on a head, if the attributes allow it. -/
def startBuilding (e : Engine) (a : Answers) (head : SealedHeader) (hash : Hash)
    (attributes : Option PayloadAttributes) : Reply CallError ForkchoiceUpdated :=
  let status := PayloadStatus.valid hash
  match attributes with
  | none => e.answer (.ofStatus status)
  | some attributes =>
    if e.buildsPayloads && !(attributes.timestamp ≤ head.header.timestamp) then
      (e.answer ⟨status, (a.startPayload hash attributes).toOption⟩).after
        [.startPayload hash attributes]
    else e.answer (.ofStatus status)

/-- Answers for a head. -/
def judgeHead (e : Engine) (a : Answers) (head : Hash) (attributes : Option PayloadAttributes) :
    Reply CallError ForkchoiceUpdated :=
  match e.badBlocks.status? head with
  | some status => e.answer (.ofStatus status)
  | none =>
    let reply : Reply CallError ForkchoiceUpdated :=
      if a.syncing then e.answer (.ofStatus .syncing)
      else
        (e.reading (a.header head) fun
          | none => (e.answer (.ofStatus .syncing)).after [.syncToHead head]
          | some header => e.startBuilding a header head attributes).after [.readHeader head]
    reply.after [.askSyncing]

/-- Answers a forkchoice state. -/
def judgeForkchoice (e : Engine) (a : Answers) (state : ForkchoiceState)
    (attributes : Option PayloadAttributes) : Reply CallError ForkchoiceUpdated :=
  if state.head.isZero then e.answer (.ofStatus (.invalid none (some zeroHead)))
  else
    (e.judgeHead a state.head attributes).after (if e.announces then [.announce state] else [])

/-- What is counted for the outcome of a forkchoice state; an error is not counted. -/
def forkchoiceCounters : Except CallError ForkchoiceUpdated → List Call
  | .ok updated => [.count (.forkchoice updated.status.verdict.name)]
  | .error _ => []

/-- Handles a forkchoice state: signals the call, answers it and counts the answer. -/
def forkchoiceUpdated (e : Engine) (a : Answers) (state : ForkchoiceState)
    (attributes : Option PayloadAttributes) : Reply CallError ForkchoiceUpdated :=
  let reply := e.judgeForkchoice a state attributes
  (reply.after [.signal]).followedBy (forkchoiceCounters reply.result)

/-- Handles a request for a built payload. -/
def getPayload (e : Engine) (a : Answers) (id : PayloadId) :
    Reply CallError (Option BuiltPayload) :=
  if e.buildsPayloads then (e.answer (a.builtPayload id)).after [.signal, .fetchPayload id]
  else (e.answer none).after [.signal]

/-- Signals a call that is refused before the engine looks at it. -/
def rejectedCall (e : Engine) : Reply CallError Unit := (e.answer ()).after [.signal]

end ExecutionNode.Engine
