import ExecutionNode.Engine.Api
import ExecutionNode.Json.Parser

/-!
# The engine interface over JSON-RPC

A request names a method and gives its parameters in an array or by name, where a name may be
spelled in either of two ways.  The text of the parameters is read once the method is known.
Parameters that cannot be read are refused before the engine is called; those behind the last
known one are ignored.  An error is answered by a number and a text.
-/

namespace ExecutionNode.Engine.Rpc

/-! ### Requests -/

/-- A request. -/
structure Request where
  /-- What the response is matched by: a text, a word or null. -/
  id : Json
  /-- The name of the method. -/
  method : String
  /-- The text of the parameters. -/
  params : Option String

namespace Request

/-- The fields of a request. The parameters are read when the method is known. -/
def shape : Json.Shape :=
  .fields [("jsonrpc", .whole), ("id", .whole), ("method", .whole), ("params", .verbatim)]

/-- Reads what a response is matched by. -/
def id? : Json.Decoder Json
  | .null => some .null
  | .str s => some (.str s)
  | j => (Json.uint64? j).map Json.ofUInt64

/-- Reads the version mark. -/
def version? : Json.Decoder Unit
  | .str s => if s = "2.0" then some () else none
  | _ => none

/-- Reads a request whose parameters stand as their text. -/
def ofJson? : Json.Decoder Request := fun j => do
  let r ← Json.record? shape j
  let _ ← r.required "jsonrpc" version?
  let id ← r.required "id" id?
  let method ← r.required "method" Json.string?
  let params ← r.optional "params" Json.string?
  some { id, method, params }

/-- Reads the text of a request. -/
def parse? (text : String) : Option Request := Json.parse? shape text >>= ofJson?

end Request

/-! ### Parameters -/

/-- A parameter of a method. -/
structure Parameter where
  /-- How its name may be spelled. -/
  spellings : List String
  /-- What its text is read for. -/
  shape : Json.Shape

/-- Reads the parameters of an array from its bracket or a comma on. What follows them is not read,
but a blank must not stand between one of them and the sign behind it. -/
def positional : List Parameter → List Char → Option (List Json)
  | [], _ => some []
  | p :: ps, cs =>
    match cs with
    | [] => some []
    | ']' :: _ => some []
    | c :: rest =>
      if c = '[' ∨ c = ',' then
        match Json.read? p.shape rest with
        | none => none
        | some (value, rest) => (positional ps rest).map (value :: ·)
      else none

/-- Reads the parameters of an object. -/
def named (ps : List Parameter) (text : String) : Option Json :=
  let fields := ps.flatMap fun p => p.spellings.map fun name => (name, p.shape)
  Json.parse? (.fields fields) text

/-- Reads the parameters, as an array without the further ones or as an object. -/
def arguments? (ps : List Parameter) : Option String → Option Json
  | none => some (.arr [])
  | some text =>
    if text = "[]" then some (.arr [])
    else if text.toList.head? = some '\x7b' then named ps text
    else (positional ps text.toList).map .arr

/-- What stands for one parameter. -/
inductive Argument where
  /-- The value. -/
  | given (value : Json)
  /-- Nothing. -/
  | missing
  /-- Two values under different spellings. -/
  | ambiguous

/-- The parameter at a position or with one of its spellings. -/
def Parameter.argument (p : Parameter) (position : Nat) : Json → Argument
  | .arr items =>
    match items[position]? with
    | some value => .given value
    | none => .missing
  | .obj fields =>
    match fields.filter fun field => p.spellings.contains field.1 with
    | [] => .missing
    | [(_, value)] => .given value
    | _ => .ambiguous
  | _ => .missing

/-- Reads a parameter that must be given. -/
def Parameter.required {α : Type} (p : Parameter) (position : Nat) (arguments : Json)
    (decoder : Json.Decoder α) : Option α :=
  match p.argument position arguments with
  | .given value => decoder value
  | _ => none

/-- Reads a parameter that may be missing or null. -/
def Parameter.optional {α : Type} (p : Parameter) (position : Nat) (arguments : Json)
    (decoder : Json.Decoder α) : Option (Option α) :=
  match p.argument position arguments with
  | .given value => Json.nullable? decoder value
  | .missing => some none
  | .ambiguous => none

/-- Reads the only parameter of a method. -/
def only? {α : Type} (p : Parameter) (decoder : Json.Decoder α) (params : Option String) :
    Option α := do
  let arguments ← arguments? [p] params
  p.required 0 arguments decoder

/-- A payload. -/
def payload : Parameter := ⟨["payload"], Payload.shape⟩

/-- A forkchoice state. -/
def forkchoiceState : Parameter :=
  ⟨["fork_choice_state", "forkChoiceState"], ForkchoiceState.shape⟩

/-- What a payload shall be built for. -/
def attributes : Parameter :=
  ⟨["payload_attributes", "payloadAttributes"], PayloadAttributes.shape⟩

/-- The name of a payload. -/
def payloadId : Parameter := ⟨["payload_id", "payloadId"], .octets 8⟩

/-- The names of the methods that the caller knows. -/
def capabilities : Parameter := ⟨["capabilities"], .whole⟩

/-- Reads a forkchoice state and what a payload shall be built for. -/
def forkchoice? (params : Option String) :
    Option (ForkchoiceState × Option PayloadAttributes) := do
  let arguments ← arguments? [forkchoiceState, attributes] params
  let state ← forkchoiceState.required 0 arguments ForkchoiceState.ofJson?
  let attributes ← attributes.optional 1 arguments PayloadAttributes.ofJson?
  some (state, attributes)

/-! ### Responses -/

/-- A response. -/
inductive Response where
  /-- The result of the method. -/
  | result (value : Json)
  /-- Why there is none. -/
  | error (code : Int) (message : String)

/-- The parameters could not be read. -/
def Response.invalidParams : Response := .error (-32602) "Invalid params"

/-- There is no such method. -/
def Response.methodNotFound : Response := .error (-32601) "Method not found"

/-- The response to the outcome of a method. -/
def Response.ofResult {α : Type} (write : α → Json) : Except ApiError α → Response
  | .ok a => .result (write a)
  | .error e => .error e.code e.message

/-- Serves a call and records its latency. -/
def serve {α : Type} (method : Method) (write : α → Json) (reply : Reply ApiError α) :
    Reply Empty Response :=
  (reply.mapResult fun result => .ok (Response.ofResult write result)).followedBy
    [.count (.latency method)]

/-- Serves new payloads. -/
def newPayload (v : Version) (e : Engine) (a : Answers) (params : Option String) :
    Reply Empty Response :=
  match only? payload Payload.ofJson? params with
  | none => e.answer .invalidParams
  | some payload => serve (.newPayload v) PayloadStatus.toJson (Api.newPayload v e a payload)

/-- Serves forkchoice states. -/
def forkchoiceUpdated (v : Version) (e : Engine) (a : Answers) (params : Option String) :
    Reply Empty Response :=
  match forkchoice? params with
  | none => e.answer .invalidParams
  | some (state, attributes) =>
    serve (.forkchoiceUpdated v) ForkchoiceUpdated.toJson
      (Api.forkchoiceUpdated v e a state attributes)

/-- Serves built payloads. -/
def getPayload (v : Version) (e : Engine) (a : Answers) (params : Option String) :
    Reply Empty Response :=
  match only? payloadId (Json.fixed? 8) params with
  | none => e.answer .invalidParams
  | some id =>
    match v with
    | .v1 => serve (.getPayload v) Payload.toJson (Api.getPayloadV1 e a id)
    | .v2 => serve (.getPayload v) PayloadEnvelope.toJson (Api.getPayloadV2 e a id)

/-- Tells the names of the methods. -/
def exchangeCapabilities (e : Engine) (params : Option String) : Reply Empty Response :=
  match only? capabilities (Json.list? Json.string?) params with
  | none => e.answer .invalidParams
  | some _ => e.answer (.result (.arr (Api.capabilities.map .str)))

/-- Handles a request. -/
def handle (e : Engine) (a : Answers) (r : Request) : Reply Empty Response :=
  match r.method with
  | "engine_newPayloadV1" => newPayload .v1 e a r.params
  | "engine_newPayloadV2" => newPayload .v2 e a r.params
  | "engine_forkchoiceUpdatedV1" => forkchoiceUpdated .v1 e a r.params
  | "engine_forkchoiceUpdatedV2" => forkchoiceUpdated .v2 e a r.params
  | "engine_getPayloadV1" => getPayload .v1 e a r.params
  | "engine_getPayloadV2" => getPayload .v2 e a r.params
  | "engine_exchangeCapabilities" => exchangeCapabilities e r.params
  | _ => e.answer .methodNotFound

end ExecutionNode.Engine.Rpc
