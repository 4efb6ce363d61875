import ExecutionNode.Engine.Rpc
import ExecutionNode.Proofs.Engine.Session
import ExecutionNode.Proofs.Json.Wire

/-!
# Ways to ask the engine

The engine is asked in three ways: directly, by the methods of its interface, and by requests.  A
question is the same however it is asked, and so is what the engine does about it.

* `Ask` is a question and `Contact` a way of asking one, or a request that comes to none.
  `Contact.ask?` is the question that a contact comes to.
* `Serving` says how a request is served: its question is put to a method, and without a question
  it is answered right away (`serving_handle`).
* `Dealt` says what every contact comes to (`dealt`): to nothing, to a refusal that only signals, or
  to what the engine does about the question.  What a request is answered with is read from the
  response, so it takes that a status is read back from its JSON form.
-/

namespace ExecutionNode.Engine

variable {e : Engine} {a : Answers}

/-! ### Questions and ways to ask them -/

/-- What the consensus layer asks of the engine. -/
inductive Ask where
  /-- To judge a payload. -/
  | newPayload (payload : Payload)
  /-- To follow a forkchoice state, and perhaps to build a payload. -/
  | forkchoice (state : ForkchoiceState) (attributes : Option PayloadAttributes)
  /-- To hand out a built payload. -/
  | getPayload (id : PayloadId)
deriving DecidableEq

namespace Ask

/-- The question as an input of the engine. -/
def input : Ask → Input
  | newPayload payload => .newPayload payload
  | forkchoice state attributes => .forkchoice state attributes
  | getPayload id => .getPayload id

/-- Whether withdrawals come with the question. -/
def hasWithdrawals : Ask → Bool
  | newPayload payload => payload.withdrawals.isSome
  | forkchoice _ attributes => attributes.any (·.withdrawals.isSome)
  | getPayload _ => false

/-- Whether a version of the methods refuses the question for its withdrawals. -/
def isRefused (v : Version) (ask : Ask) : Bool := decide (v = .v1) && ask.hasWithdrawals

/-- The method that the question is put to. -/
def method (v : Version) : Ask → Method
  | newPayload _ => .newPayload v
  | forkchoice .. => .forkchoiceUpdated v
  | getPayload _ => .getPayload v

end Ask

/-- What comes back. -/
inductive Said where
  /-- From the engine itself. -/
  | output (result : Except CallError Output)
  /-- From the method for new payloads. -/
  | status (result : Except ApiError PayloadStatus)
  /-- From the method for forkchoice states. -/
  | updated (result : Except ApiError ForkchoiceUpdated)
  /-- From the first method for built payloads. -/
  | payload (result : Except ApiError Payload)
  /-- From the second method for built payloads. -/
  | envelope (result : Except ApiError PayloadEnvelope)
  /-- From the server of requests. -/
  | response (response : Rpc.Response)

/-- The status of a payload that is said. -/
def Said.payloadStatus? : Said → Option PayloadStatus
  | output (.ok (.status s)) => some s
  | status (.ok s) => some s
  | response (.result value) => PayloadStatus.ofJson? value
  | _ => none

/-- The status of a head that is said. -/
def Said.headStatus? : Said → Option PayloadStatus
  | output (.ok (.updated u)) => some u.status
  | updated (.ok u) => some u.status
  | response (.result value) => (ForkchoiceUpdated.ofJson? value).map (·.status)
  | _ => none

/-- A way in. -/
inductive Contact where
  /-- To the engine itself. -/
  | direct (ask : Ask)
  /-- By a method of the engine interface. -/
  | method (v : Version) (ask : Ask)
  /-- By a request, which may ask for something else or be unreadable. -/
  | request (r : Rpc.Request)

/-- What a method does about a question. -/
def Ask.apply (e : Engine) (a : Answers) : Version → Ask → Reply Empty Said
  | v, .newPayload payload => (Api.newPayload v e a payload).mapResult (.ok <| .status ·)
  | v, .forkchoice state attributes =>
    (Api.forkchoiceUpdated v e a state attributes).mapResult (.ok <| .updated ·)
  | .v1, .getPayload id => (Api.getPayloadV1 e a id).mapResult (.ok <| .payload ·)
  | .v2, .getPayload id => (Api.getPayloadV2 e a id).mapResult (.ok <| .envelope ·)

/-- The reply to a contact. -/
def Contact.reply (e : Engine) (a : Answers) : Contact → Reply Empty Said
  | direct ask => (e.handle a ask.input).mapResult (.ok <| .output ·)
  | method v ask => ask.apply e a v
  | request r => (Rpc.handle e a r).mapResult (·.map .response)

/-- The question that a request comes to: its method must be one for questions and its parameters
must be readable. -/
def Rpc.Request.ask? (r : Rpc.Request) : Option (Version × Ask) :=
  match r.method with
  | "engine_newPayloadV1" => payload? .v1
  | "engine_newPayloadV2" => payload? .v2
  | "engine_forkchoiceUpdatedV1" => forkchoice? .v1
  | "engine_forkchoiceUpdatedV2" => forkchoice? .v2
  | "engine_getPayloadV1" => id? .v1
  | "engine_getPayloadV2" => id? .v2
  | _ => none
where
  /-- A payload. -/
  payload? (v : Version) : Option (Version × Ask) :=
    (Rpc.only? Rpc.payload Payload.ofJson? r.params).map fun payload => (v, .newPayload payload)
  /-- A forkchoice state. -/
  forkchoice? (v : Version) : Option (Version × Ask) :=
    (Rpc.forkchoice? r.params).map fun (state, attributes) => (v, .forkchoice state attributes)
  /-- The name of a payload. -/
  id? (v : Version) : Option (Version × Ask) :=
    (Rpc.only? Rpc.payloadId (Json.fixed? 8) r.params).map fun id => (v, .getPayload id)

namespace Contact

/-- The question that a contact comes to. The engine itself refuses nothing, like the second version
of its methods. -/
def ask? : Contact → Option (Version × Ask)
  | direct ask => some (.v2, ask)
  | method v ask => some (v, ask)
  | request r => r.ask?

/-- Whether a contact comes to a question. -/
def isCall (c : Contact) : Bool := c.ask?.isSome

/-- Whether a contact asks for a payload to be judged. -/
def asksPayload (c : Contact) : Bool :=
  c.ask?.any fun
    | (_, .newPayload _) => true
    | _ => false

/-- Whether a contact asks for a forkchoice state to be followed. -/
def asksHead (c : Contact) : Bool :=
  c.ask?.any fun
    | (_, .forkchoice ..) => true
    | _ => false

/-- Whether a contact is refused for its withdrawals. -/
def isRefused (c : Contact) : Bool := c.ask?.any fun (v, ask) => ask.isRefused v

/-- The latency that is recorded of a contact: that of a request. -/
def latency : Contact → List Call
  | request r => r.ask?.toList.map fun (v, ask) => .count (.latency (ask.method v))
  | _ => []

end Contact

/-- Answers a question as a request. -/
def Ask.serve (e : Engine) (a : Answers) : Version → Ask → Reply Empty Rpc.Response
  | v, .newPayload payload =>
    Rpc.serve (.newPayload v) PayloadStatus.toJson (Api.newPayload v e a payload)
  | v, .forkchoice state attributes =>
    Rpc.serve (.forkchoiceUpdated v) ForkchoiceUpdated.toJson
      (Api.forkchoiceUpdated v e a state attributes)
  | .v1, .getPayload id => Rpc.serve (.getPayload .v1) Payload.toJson (Api.getPayloadV1 e a id)
  | .v2, .getPayload id =>
    Rpc.serve (.getPayload .v2) PayloadEnvelope.toJson (Api.getPayloadV2 e a id)

/-- A request that comes to a question is served, and any other is answered right away. -/
inductive Serving (e : Engine) (a : Answers) :
    Option (Version × Ask) → Reply Empty Rpc.Response → Prop where
  /-- It comes to a question. -/
  | question (v : Version) (ask : Ask) : Serving e a (some (v, ask)) (ask.serve e a v)
  /-- It does not. -/
  | other (response : Rpc.Response) : Serving e a none (e.answer response)

theorem serving_newPayload (v : Version) (r : Rpc.Request) :
    Serving e a (Rpc.Request.ask?.payload? r v) (Rpc.newPayload v e a r.params) := by
  unfold Rpc.Request.ask?.payload? Rpc.newPayload
  cases Rpc.only? Rpc.payload Payload.ofJson? r.params with
  | none => exact .other _
  | some payload => exact .question v (.newPayload payload)

theorem serving_forkchoiceUpdated (v : Version) (r : Rpc.Request) :
    Serving e a (Rpc.Request.ask?.forkchoice? r v) (Rpc.forkchoiceUpdated v e a r.params) := by
  unfold Rpc.Request.ask?.forkchoice? Rpc.forkchoiceUpdated
  cases Rpc.forkchoice? r.params with
  | none => exact .other _
  | some asked => exact .question v (.forkchoice asked.1 asked.2)

theorem serving_getPayload (v : Version) (r : Rpc.Request) :
    Serving e a (Rpc.Request.ask?.id? r v) (Rpc.getPayload v e a r.params) := by
  unfold Rpc.Request.ask?.id? Rpc.getPayload
  cases Rpc.only? Rpc.payloadId (Json.fixed? 8) r.params with
  | none => exact .other _
  | some id => cases v <;> exact .question _ (.getPayload id)

theorem serving_exchangeCapabilities (params : Option String) :
    Serving e a none (Rpc.exchangeCapabilities e params) := by
  unfold Rpc.exchangeCapabilities
  split <;> exact .other _

/-- Every request is served in one of these ways. -/
theorem serving_handle (r : Rpc.Request) : Serving e a r.ask? (Rpc.handle e a r) := by
  obtain ⟨id, method, params⟩ := r
  unfold Rpc.handle Rpc.Request.ask?
  dsimp only
  split
  · exact serving_newPayload .v1 _
  · exact serving_newPayload .v2 _
  · exact serving_forkchoiceUpdated .v1 _
  · exact serving_forkchoiceUpdated .v2 _
  · exact serving_getPayload .v1 _
  · exact serving_getPayload .v2 _
  · -- None of the six: the capabilities, or no method at all.
    split <;> first
      | contradiction
      | exact serving_exchangeCapabilities params
      | exact .other _

/-! ### What a contact comes to -/

/-- The status of a payload that a reply tells. -/
def payloadStatus? (r : Reply Empty Said) : Option PayloadStatus :=
  r.result.toOption.bind Said.payloadStatus?

/-- The status of a head that a reply tells. -/
def headStatus? (r : Reply Empty Said) : Option PayloadStatus :=
  r.result.toOption.bind Said.headStatus?

/-- A reply tells what the engine answered to a question. -/
structure Tells (e : Engine) (a : Answers) (ask : Ask) (r : Reply Empty Said) : Prop where
  /-- The status of a payload. -/
  payload : ∀ payload, ask = .newPayload payload →
    payloadStatus? r = (e.newPayload a payload).result.toOption
  /-- The status of a head. -/
  head : ∀ state attributes, ask = .forkchoice state attributes →
    headStatus? r = (e.forkchoiceUpdated a state attributes).result.toOption.map (·.status)

/-- What a contact comes to. -/
inductive Dealt (e : Engine) (a : Answers) (c : Contact) : Prop where
  /-- It asks nothing of the engine, which does nothing about it. -/
  | other (unasked : c.ask? = none) (idle : (c.reply e a).calls = [])
      (unchanged : (c.reply e a).badBlocks = e.badBlocks)
  /-- It is refused for its withdrawals. -/
  | refused {v : Version} {ask : Ask} (asked : c.ask? = some (v, ask))
      (refused : ask.isRefused v = true) (calls : (c.reply e a).calls = .signal :: c.latency)
      (unchanged : (c.reply e a).badBlocks = e.badBlocks)
      (statusless : ∀ state attributes, ask = .forkchoice state attributes →
        headStatus? (c.reply e a) = none)
  /-- The engine answers its question. -/
  | answered {v : Version} {ask : Ask} (asked : c.ask? = some (v, ask))
      (accepted : ask.isRefused v = false)
      (calls : (c.reply e a).calls = (e.handle a ask.input).calls ++ c.latency)
      (tells : Tells e a ask (c.reply e a))

/-- A question with withdrawals is refused by the first version. -/
theorem apply_of_isRefused {v : Version} {ask : Ask} (h : ask.isRefused v = true) :
    (ask.apply e a v).calls = [.signal] ∧ (ask.apply e a v).badBlocks = e.badBlocks ∧
      ∀ state attributes, ask = .forkchoice state attributes →
        headStatus? (ask.apply e a v) = none := by
  obtain ⟨rfl, hw⟩ : v = .v1 ∧ ask.hasWithdrawals = true := by
    simpa [Ask.isRefused] using h
  cases ask with
  | newPayload payload =>
    have hrefused : Api.newPayload .v1 e a payload = e.refuseWithdrawals := if_pos ⟨rfl, hw⟩
    rw [Ask.apply, hrefused]
    exact ⟨rfl, rfl, nofun⟩
  | forkchoice state attributes =>
    have hrefused : Api.forkchoiceUpdated .v1 e a state attributes = e.refuseWithdrawals :=
      if_pos ⟨rfl, hw⟩
    rw [Ask.apply, hrefused]
    exact ⟨rfl, rfl, fun _ _ _ => rfl⟩
  | getPayload id => cases hw

/-- Every other question is answered by the engine. -/
theorem apply_of_accepted {v : Version} {ask : Ask} (h : ask.isRefused v = false) :
    (ask.apply e a v).calls = (e.handle a ask.input).calls ∧ Tells e a ask (ask.apply e a v) := by
  have hversion : ¬ (v = .v1 ∧ ask.hasWithdrawals = true) := by
    simpa [Ask.isRefused] using h
  cases ask with
  | newPayload payload =>
    have haccepted : Api.newPayload v e a payload =
        (e.newPayload a payload).mapResult (·.mapError .newPayload) := if_neg hversion
    rw [Ask.apply, haccepted]
    refine ⟨rfl, ?_, nofun⟩
    rintro _ ⟨⟩
    show Said.payloadStatus? (.status ((e.newPayload a payload).result.mapError .newPayload)) = _
    cases (e.newPayload a payload).result <;> rfl
  | forkchoice state attributes =>
    have haccepted : Api.forkchoiceUpdated v e a state attributes =
        (e.forkchoiceUpdated a state attributes).mapResult (·.mapError .forkchoice) :=
      if_neg hversion
    rw [Ask.apply, haccepted]
    refine ⟨rfl, nofun, ?_⟩
    rintro _ _ ⟨⟩
    show Said.headStatus?
      (.updated ((e.forkchoiceUpdated a state attributes).result.mapError .forkchoice)) = _
    cases (e.forkchoiceUpdated a state attributes).result <;> rfl
  | getPayload id => cases v <;> exact ⟨rfl, nofun, nofun⟩

/-- A response tells the status of a payload as the method does. -/
theorem payloadStatus?_response (result : Except ApiError PayloadStatus) :
    Said.payloadStatus? (.response (.ofResult PayloadStatus.toJson result)) =
      Said.payloadStatus? (.status result) := by
  cases result with
  | error error => rfl
  | ok status => exact PayloadStatus.ofJson?_toJson status

/-- A response tells the status of a head as the method does. -/
theorem headStatus?_response (result : Except ApiError ForkchoiceUpdated) :
    Said.headStatus? (.response (.ofResult ForkchoiceUpdated.toJson result)) =
      Said.headStatus? (.updated result) := by
  cases result with
  | error error => rfl
  | ok updated => exact congrArg (Option.map _) (ForkchoiceUpdated.ofJson?_toJson updated)

/-- A request that comes to a question is answered like the method, and its latency is recorded. -/
theorem tells_serve {v : Version} {ask : Ask} (h : Tells e a ask (ask.apply e a v)) :
    Tells e a ask ((ask.serve e a v).mapResult (·.map .response)) := by
  constructor
  · rintro payload rfl
    exact (payloadStatus?_response _).trans (h.payload payload rfl)
  · rintro state attributes rfl
    exact (headStatus?_response _).trans (h.head state attributes rfl)

theorem calls_serve (v : Version) (ask : Ask) :
    (ask.serve e a v).calls = (ask.apply e a v).calls ++ [.count (.latency (ask.method v))] := by
  cases ask with
  | getPayload id => cases v <;> rfl
  | _ => rfl

theorem badBlocks_serve (v : Version) (ask : Ask) :
    (ask.serve e a v).badBlocks = (ask.apply e a v).badBlocks := by
  cases ask with
  | getPayload id => cases v <;> rfl
  | _ => rfl

/-- The latency of a request is recorded once it comes to a question. -/
theorem latency_request {r : Rpc.Request} {v : Version} {ask : Ask}
    (h : r.ask? = some (v, ask)) :
    (Contact.request r).latency = [.count (.latency (ask.method v))] := by
  rw [Contact.latency, h]
  rfl

theorem dealt_request (r : Rpc.Request) : Dealt e a (.request r) := by
  have hserving := serving_handle (e := e) (a := a) r
  generalize hasked : r.ask? = asked at hserving
  generalize hreply : Rpc.handle e a r = reply at hserving
  cases hserving with
  | question v ask =>
    have hcalls : ((Contact.request r).reply e a).calls =
        (ask.apply e a v).calls ++ (Contact.request r).latency := by
      rw [latency_request hasked, ← calls_serve, ← hreply]
      rfl
    have hbad : ((Contact.request r).reply e a).badBlocks = (ask.apply e a v).badBlocks := by
      rw [← badBlocks_serve, ← hreply]
      rfl
    cases h : ask.isRefused v with
    | true =>
      obtain ⟨hsignal, hunchanged, hnone⟩ := apply_of_isRefused (e := e) (a := a) h
      refine .refused hasked h (hcalls.trans (by rw [hsignal]; rfl)) (hbad.trans hunchanged) ?_
      rintro state attributes rfl
      rw [← hnone state attributes rfl, Contact.reply, hreply]
      exact headStatus?_response _
    | false =>
      obtain ⟨hhandled, htells⟩ := apply_of_accepted (e := e) (a := a) h
      refine .answered hasked h (hcalls.trans (by rw [hhandled])) ?_
      have htold := tells_serve htells
      rw [← hreply] at htold
      exact htold
  | other response =>
    refine .other hasked ?_ ?_
    · exact congrArg Reply.calls hreply
    · exact congrArg Reply.badBlocks hreply

/-- Every contact comes to one of the three. -/
theorem dealt (e : Engine) (a : Answers) (c : Contact) : Dealt e a c := by
  cases c with
  | direct ask =>
    refine .answered (v := .v2) rfl rfl (List.append_nil _).symm ⟨?_, ?_⟩
    · rintro payload rfl
      show Said.payloadStatus? (.output ((e.newPayload a payload).result.map .status)) = _
      cases (e.newPayload a payload).result <;> rfl
    · rintro state attributes rfl
      show Said.headStatus?
        (.output ((e.forkchoiceUpdated a state attributes).result.map .updated)) = _
      cases (e.forkchoiceUpdated a state attributes).result <;> rfl
  | method v ask =>
    cases h : ask.isRefused v with
    | true =>
      obtain ⟨hcalls, hbad, hnone⟩ := apply_of_isRefused (e := e) (a := a) h
      exact .refused rfl h hcalls hbad hnone
    | false =>
      obtain ⟨hcalls, htells⟩ := apply_of_accepted (e := e) (a := a) h
      exact .answered rfl h (hcalls.trans (List.append_nil _).symm) htells
  | request r => exact dealt_request r

end ExecutionNode.Engine
