import ExecutionNode.Proofs.Engine.Session

/-!
# Faults of the surroundings

A call of the engine fails exactly if something that it asked failed.  The error is then the first
fault, nothing is asked after it, and nothing was done before it but to ask.

* `Call.fault?` reads the fault of a call off the answers.  The processor may report its faults in
  two forms, and both count as the same.
* `Surfaces` is what every stage of judging a payload has: either everything that was asked was
  answered, or the last question failed with the error of the reply, and no mark is left.  One
  lemma a stage leads to `surfaces_judgePayload`.
* `HeadReply` lists the replies for a head of a forkchoice state (`headReply_judgeHead`).

`faults_surface` puts these together.
-/

namespace ExecutionNode.Engine

/-! ### Which calls fail -/

/-- The fault of something that is read. -/
def readFault? {α : Type} : Except ReadError α → Option CallError
  | .error cause => some (.provider cause)
  | .ok _ => none

/-- The fault of an execution, in either form. -/
def processFault? : Except Fault Processing → Option CallError
  | .error f => some (.internal f)
  | .ok (.fault f) => some (.internal f)
  | .ok _ => none

/-- The fault with which a call is answered. -/
def Call.fault? (a : Answers) : Call → Option CallError
  | .readBlock hash => readFault? (a.block hash)
  | .readHeader hash => readFault? (a.header hash)
  | .askDescends header => readFault? (a.descends header)
  | .askLatestValid header => readFault? (a.latestValid header)
  | .askLatestValidByHash hash => readFault? (a.latestValidByHash hash)
  | .process block => processFault? (a.process block)
  | _ => none

/-- Whether a call asks the surroundings for something that the engine goes on with. -/
def Call.isQuestion : Call → Bool
  | .readBlock _ => true
  | .readHeader _ => true
  | .askSyncing => true
  | .askDescends _ => true
  | .askLatestValid _ => true
  | .askLatestValidByHash _ => true
  | .process _ => true
  | _ => false

variable {e : Engine} {a : Answers}

/-- To note and to count a call never fails. -/
theorem findSome?_fault?_noted (a : Answers) (calls : List Call) (counter : Counter) :
    ([Call.signal] ++ calls ++ [Call.count counter]).findSome? (·.fault? a) =
      calls.findSome? (·.fault? a) := by
  have hcount : [Call.count counter].findSome? (Call.fault? a) = none := rfl
  rw [List.findSome?_append, hcount, Option.or_none]
  rfl

/-! ### Payloads -/

/-- The reply comes with the fault of a question, or there is none: then a block was handed to
backward sync only under the answer that the node is syncing. -/
inductive Surfaces (e : Engine) (a : Answers) : Reply CallError PayloadStatus → Prop where
  /-- Everything that was asked was answered. -/
  | answered {status : PayloadStatus} {badBlocks : BadBlocks} {calls : List Call}
      (faultless : ∀ c ∈ calls, c.fault? a = none)
      (handedOver : ∀ block, .append block ∈ calls → status = .syncing) :
      Surfaces e a ⟨.ok status, badBlocks, calls⟩
  /-- The last question failed, and there were only questions. -/
  | failed {error : CallError} {asked : List Call} {last : Call}
      (questions : ∀ c ∈ asked, c.isQuestion = true ∧ c.fault? a = none)
      (question : last.isQuestion = true) (fault : last.fault? a = some error) :
      Surfaces e a ⟨.error error, e.badBlocks, asked ++ [last]⟩

/-- A status that is told right away surfaces. -/
theorem surfaces_answer (status : PayloadStatus) : Surfaces e a (e.answer status) :=
  .answered (by simp) (by simp)

/-- A question that fails surfaces. -/
theorem surfaces_question {error : CallError} {question : Call}
    (hquestion : question.isQuestion = true) (hfault : question.fault? a = some error) :
    Surfaces e a ⟨.error error, e.badBlocks, [question]⟩ := by
  have hfailed : Surfaces e a ⟨.error error, e.badBlocks, [] ++ [question]⟩ :=
    .failed (fun _ hc => absurd hc List.not_mem_nil) hquestion hfault
  exact hfailed

/-- Questions that were answered may come before. -/
theorem Surfaces.after {r : Reply CallError PayloadStatus} (h : Surfaces e a r) {calls : List Call}
    (hcalls : ∀ c ∈ calls, c.isQuestion = true ∧ c.fault? a = none) :
    Surfaces e a (r.after calls) := by
  cases h with
  | answered faultless handedOver =>
    refine .answered ?_ ?_
    · intro c hc
      rcases List.mem_append.mp hc with hnew | hold
      · exact (hcalls c hnew).2
      · exact faultless c hold
    · intro block hblock
      rcases List.mem_append.mp hblock with hnew | hold
      · exact absurd (hcalls _ hnew).1 Bool.false_ne_true
      · exact handedOver block hold
  | failed questions question fault =>
    unfold Reply.after
    rw [← List.append_assoc]
    refine .failed ?_ question fault
    exact List.forall_mem_append.mpr ⟨hcalls, questions⟩

/-- What is read either fails the call or is gone on with. -/
theorem surfaces_reading {α : Type} {read : Except ReadError α} {call : Call}
    {go : α → Reply CallError PayloadStatus} (hquestion : call.isQuestion = true)
    (hcall : call.fault? a = readFault? read) (hgo : ∀ x, Surfaces e a (go x)) :
    Surfaces e a ((e.reading read go).after [call]) := by
  cases read with
  | error cause => exact surfaces_question hquestion hcall
  | ok x => exact (hgo x).after (List.forall_mem_singleton.mpr ⟨hquestion, hcall⟩)

theorem surfaces_malformed (parentHash : Hash) (error : Payload.ConversionError) :
    Surfaces e a (e.malformed a parentHash error) := by
  unfold malformed
  split
  · exact surfaces_answer _
  · exact surfaces_reading rfl rfl fun ancestor => surfaces_answer _
  · exact surfaces_answer _

/-- Both forms of a fault of the processor surface alike. -/
theorem surfaces_execute (block : Block) (ancestor : Hash) :
    Surfaces e a (e.execute a block ancestor) := by
  have hfault : (Call.process block).fault? a = processFault? (a.process block) := rfl
  have hexecuted {status : PayloadStatus} {badBlocks : BadBlocks}
      (hnone : processFault? (a.process block) = none) :
      Surfaces e a ⟨.ok status, badBlocks, [.process block]⟩ :=
    .answered (List.forall_mem_singleton.mpr hnone) (by simp)
  unfold execute
  cases hprocess : a.process block with
  | error f => exact surfaces_question rfl (by rw [hfault, hprocess]; rfl)
  | ok outcome =>
    cases outcome with
    | fault f => exact surfaces_question rfl (by rw [hfault, hprocess]; rfl)
    | success outputs => exact hexecuted (by rw [hprocess]; rfl)
    | failure reason => exact hexecuted (by rw [hprocess]; rfl)

theorem surfaces_judge (block : Block) (parent : SealedHeader) (descends : Bool)
    (ancestor : Option Hash) : Surfaces e a (e.judge a block parent descends ancestor) := by
  unfold judge
  split
  · exact surfaces_answer _
  · split
    · cases ancestor with
      | none => exact surfaces_answer _
      | some ancestor => exact surfaces_execute block ancestor
    · exact .answered (by simp) (by simp)

theorem surfaces_resolve (block : Block) (parent : SealedHeader) :
    Surfaces e a (e.resolve a block parent) := by
  refine surfaces_reading rfl rfl fun descends => ?_
  exact surfaces_reading rfl rfl fun ancestor => surfaces_judge block parent descends ancestor

theorem surfaces_findParent (block : Block) : Surfaces e a (e.findParent a block) := by
  refine surfaces_reading rfl rfl fun known => ?_
  cases known with
  | none => exact .answered (List.forall_mem_singleton.mpr rfl) fun _ _ => rfl
  | some parent => exact surfaces_resolve block parent

theorem surfaces_admission (block : Block) : Surfaces e a (e.admission a block) := by
  refine surfaces_reading rfl rfl fun stored => ?_
  cases stored with
  | some _ => exact surfaces_answer _
  | none =>
    refine Surfaces.after ?_ (List.forall_mem_singleton.mpr ⟨rfl, rfl⟩)
    split
    · exact surfaces_answer _
    · exact surfaces_findParent block

/-- **Judging a payload surfaces faults.** -/
theorem surfaces_judgePayload (e : Engine) (a : Answers) (payload : Payload) :
    Surfaces e a (e.judgePayload a payload) := by
  unfold judgePayload
  split
  · exact surfaces_malformed _ _
  · split
    · exact surfaces_answer _
    · exact surfaces_admission _

/-- A payload ends in an error exactly if something that was asked failed; the error is the first
fault. -/
theorem result_newPayload_eq_error_iff (e : Engine) (a : Answers) (payload : Payload)
    (error : CallError) :
    (e.newPayload a payload).result = .error error ↔
      (e.newPayload a payload).calls.findSome? (·.fault? a) = some error := by
  have hsurfaces := surfaces_judgePayload e a payload
  unfold newPayload
  dsimp only
  rw [result_followedBy, result_reply_after, calls_followedBy, calls_reply_after,
    findSome?_fault?_noted]
  generalize e.judgePayload a payload = judged at hsurfaces
  cases hsurfaces with
  | answered faultless handedOver =>
    rw [List.findSome?_eq_none_iff.mpr faultless]
    simp
  | failed questions question fault =>
    rw [List.findSome?_append, List.findSome?_eq_none_iff.mpr fun c hc => (questions c hc).2,
      List.findSome?_singleton, fault, Option.none_or]
    simp

/-- A payload that ends in an error leaves the registry as it was, and was only asked about: the
last question failed, and no other. -/
theorem newPayload_of_error {payload : Payload} {error : CallError}
    (h : (e.newPayload a payload).result = .error error) :
    (e.newPayload a payload).badBlocks = e.badBlocks ∧
      ∃ asked last, (e.newPayload a payload).calls =
          .signal :: asked ++ [last, .count .newPayloadError] ∧
        (∀ c ∈ asked, c.isQuestion = true ∧ c.fault? a = none) ∧
        last.isQuestion = true ∧ last.fault? a = some error := by
  have hsurfaces := surfaces_judgePayload e a payload
  unfold newPayload at h ⊢
  generalize e.judgePayload a payload = judged at h hsurfaces
  cases hsurfaces with
  | answered faultless handedOver => cases h
  | @failed failure asked last questions question fault =>
    obtain rfl : failure = error := Except.error.inj h
    refine ⟨rfl, asked, last, ?_, questions, question, fault⟩
    simp [newPayloadCounter, Reply.after, Reply.followedBy]

/-- A block is handed to backward sync only under the answer that the node is syncing. -/
theorem result_newPayload_of_append {payload : Payload} {block : Block}
    (h : .append block ∈ (e.newPayload a payload).calls) :
    (e.newPayload a payload).result = .ok .syncing := by
  have hsurfaces := surfaces_judgePayload e a payload
  unfold newPayload at h ⊢
  dsimp only at h ⊢
  rw [calls_followedBy, calls_reply_after] at h
  rw [result_followedBy, result_reply_after]
  have hjudged : .append block ∈ (e.judgePayload a payload).calls := by simpa using h
  generalize e.judgePayload a payload = judged at hjudged hsurfaces
  cases hsurfaces with
  | answered faultless handedOver => exact congrArg _ (handedOver block hjudged)
  | failed questions question fault =>
    rcases List.mem_append.mp hjudged with hasked | hlast
    · exact absurd (questions _ hasked).1 Bool.false_ne_true
    · rw [← List.mem_singleton.mp hlast] at question
      cases question

/-! ### Forkchoice states -/

/-- The replies for a head. -/
inductive HeadReply (e : Engine) (a : Answers) (head : Hash) :
    Reply CallError ForkchoiceUpdated → Prop where
  /-- The head failed before. -/
  | recorded (status : PayloadStatus) : HeadReply e a head ⟨.ok (.ofStatus status), e.badBlocks, []⟩
  /-- The initial sync runs. -/
  | syncing : HeadReply e a head ⟨.ok (.ofStatus .syncing), e.badBlocks, [.askSyncing]⟩
  /-- The header of the head could not be read. -/
  | unreadable {cause : ReadError} (read : a.header head = .error cause) :
      HeadReply e a head
        ⟨.error (.provider cause), e.badBlocks, [.askSyncing, .readHeader head]⟩
  /-- The head is not known. -/
  | unknown (read : a.header head = .ok none) :
      HeadReply e a head ⟨.ok (.ofStatus .syncing), e.badBlocks,
        [.askSyncing, .readHeader head, .syncToHead head]⟩
  /-- The head is known, and no payload is asked of the builder. -/
  | known {header : SealedHeader} (read : a.header head = .ok (some header)) :
      HeadReply e a head ⟨.ok (.ofStatus (.valid head)), e.badBlocks,
        [.askSyncing, .readHeader head]⟩
  /-- The head is known, and the builder is asked for a payload. -/
  | building {header : SealedHeader} (attributes : PayloadAttributes)
      (read : a.header head = .ok (some header)) :
      HeadReply e a head ⟨.ok ⟨.valid head, (a.startPayload head attributes).toOption⟩,
        e.badBlocks, [.askSyncing, .readHeader head, .startPayload head attributes]⟩

theorem headReply_startBuilding {head : Hash} {header : SealedHeader}
    (hread : a.header head = .ok (some header)) (attributes : Option PayloadAttributes) :
    HeadReply e a head
      ((e.startBuilding a header head attributes).after [.askSyncing, .readHeader head]) := by
  unfold startBuilding
  dsimp only
  split
  · exact .known hread
  next attributes =>
    split
    · exact .building attributes hread
    · exact .known hread

/-- **What a head is answered.** -/
theorem headReply_judgeHead (e : Engine) (a : Answers) (head : Hash)
    (attributes : Option PayloadAttributes) :
    HeadReply e a head (e.judgeHead a head attributes) := by
  unfold judgeHead
  cases e.badBlocks.status? head with
  | some status => exact .recorded status
  | none =>
    cases hsyncing : a.syncing with
    | true => exact .syncing
    | false =>
      cases hread : a.header head with
      | error cause => exact .unreadable hread
      | ok known =>
        cases known with
        | none => exact .unknown hread
        | some header => exact headReply_startBuilding hread attributes

/-- A forkchoice state without a head is refused, and any other answered for its head. -/
theorem forkchoiceUpdated_cases (e : Engine) (a : Answers) (state : ForkchoiceState)
    (attributes : Option PayloadAttributes) :
    e.forkchoiceUpdated a state attributes = ⟨.ok (.ofStatus (.invalid none (some zeroHead))),
        e.badBlocks, [.signal, .count (.forkchoice "INVALID")]⟩ ∨
      ∃ r, HeadReply e a state.head r ∧ e.forkchoiceUpdated a state attributes =
        ⟨r.result, r.badBlocks, .signal :: (if e.announces then [.announce state] else [])
          ++ r.calls ++ forkchoiceCounters r.result⟩ := by
  unfold forkchoiceUpdated judgeForkchoice
  split
  · exact .inl rfl
  · exact .inr ⟨_, headReply_judgeHead e a state.head attributes, rfl⟩

/-- A forkchoice state ends in an error exactly if its head was looked for and could not be read. -/
theorem result_forkchoiceUpdated_eq_error_iff (e : Engine) (a : Answers) (state : ForkchoiceState)
    (attributes : Option PayloadAttributes) (error : CallError) :
    (e.forkchoiceUpdated a state attributes).result = .error error ↔
      .readHeader state.head ∈ (e.forkchoiceUpdated a state attributes).calls ∧
        ∃ cause, a.header state.head = .error cause ∧ error = .provider cause := by
  rcases forkchoiceUpdated_cases e a state attributes with hrefused | ⟨r, hr, hreply⟩
  · rw [hrefused]
    simp
  · rw [hreply]
    cases hr with
    | unreadable read =>
      constructor
      · intro hresult
        exact ⟨by simp, _, read, (Except.error.inj hresult).symm⟩
      · rintro ⟨-, cause, hcause, rfl⟩
        rw [read] at hcause
        rw [Except.error.inj hcause]
    | recorded status => simp [forkchoiceCounters]
    | syncing => simp [forkchoiceCounters]
    | unknown read => simp [read]
    | known read => simp [read]
    | building attributes read => simp [read]

/-- A forkchoice state that ends in an error was passed on and its head was looked for, and that
is all that was done. -/
theorem forkchoiceUpdated_of_error {state : ForkchoiceState}
    {attributes : Option PayloadAttributes} {error : CallError}
    (h : (e.forkchoiceUpdated a state attributes).result = .error error) :
    e.forkchoiceUpdated a state attributes = ⟨.error error, e.badBlocks,
      .signal :: (if e.announces then [.announce state] else []) ++
        [.askSyncing, .readHeader state.head]⟩ := by
  rcases forkchoiceUpdated_cases e a state attributes with hrefused | ⟨r, hr, hreply⟩
  · rw [hrefused] at h
    cases h
  · rw [hreply] at h ⊢
    cases hr with
    | unreadable read =>
      rw [← Except.error.inj h]
      simp [forkchoiceCounters]
    | _ => cases h

/-- A head for which backward sync is called is answered with `syncing`. -/
theorem result_forkchoiceUpdated_of_syncToHead {state : ForkchoiceState}
    {attributes : Option PayloadAttributes} {head : Hash}
    (h : .syncToHead head ∈ (e.forkchoiceUpdated a state attributes).calls) :
    (e.forkchoiceUpdated a state attributes).result = .ok (.ofStatus .syncing) := by
  rcases forkchoiceUpdated_cases e a state attributes with hrefused | ⟨r, hr, hreply⟩
  · rw [hrefused] at h
    simp at h
  · rw [hreply] at h ⊢
    cases hr with
    | unknown read => rfl
    | _ => simp [forkchoiceCounters] at h

/-- A head for which the builder is called is valid, with a payload unless the builder refused. -/
theorem result_forkchoiceUpdated_of_startPayload {state : ForkchoiceState}
    {attributes : Option PayloadAttributes} {head : Hash} {wanted : PayloadAttributes}
    (h : .startPayload head wanted ∈ (e.forkchoiceUpdated a state attributes).calls) :
    (e.forkchoiceUpdated a state attributes).result =
      .ok ⟨.valid head, (a.startPayload head wanted).toOption⟩ := by
  rcases forkchoiceUpdated_cases e a state attributes with hrefused | ⟨r, hr, hreply⟩
  · rw [hrefused] at h
    simp at h
  · rw [hreply] at h ⊢
    cases hr with
    | building attributes read =>
      obtain ⟨rfl, rfl⟩ : head = state.head ∧ wanted = attributes := by
        simpa [forkchoiceCounters] using h
      rfl
    | _ => simp [forkchoiceCounters] at h

/-! ### The two forms of a fault -/

/-- Two processors say the same, but for the form in which they report faults. -/
def SameButForm (process process' : Block → Except Fault Processing) : Prop :=
  ∀ block, process' block = process block ∨
    ∃ f, process block = .ok (.fault f) ∧ process' block = .error f

/-- **The form in which the processor reports a fault does not matter**, to no input. -/
theorem handle_eq_of_sameButForm {process' : Block → Except Fault Processing}
    (h : SameButForm a.process process') (e : Engine) (input : Input) :
    e.handle { a with process := process' } input = e.handle a input := by
  -- only executing looks at the processor, and all stages above it are the same functions of it
  have hexecute : ∀ block ancestor,
      e.execute { a with process := process' } block ancestor = e.execute a block ancestor := by
    intro block ancestor
    unfold execute
    dsimp only
    rcases h block with hsame | ⟨f, hform, hother⟩
    · rw [hsame]
    · rw [hform, hother]
  have hjudge : ∀ block parent descends ancestor,
      e.judge { a with process := process' } block parent descends ancestor =
        e.judge a block parent descends ancestor := by
    intro block parent descends ancestor
    unfold judge
    simp only [hexecute]
  have hadmission : ∀ block,
      e.admission { a with process := process' } block = e.admission a block := by
    intro block
    simp only [admission, findParent, resolve, hjudge]
  have hjudgePayload : ∀ payload,
      e.judgePayload { a with process := process' } payload = e.judgePayload a payload := by
    intro payload
    unfold judgePayload
    simp only [hadmission]
    rfl
  cases input with
  | newPayload payload =>
    unfold handle newPayload
    simp only [hjudgePayload]
  | forkchoice state attributes => rfl
  | getPayload id => rfl
  | rejected => rfl

/-! ### Faults surface -/

/-- **Faults are never swallowed and never leave a mark.** Take any engine and any answers of its
surroundings.

* A payload ends in an error exactly if something that was asked failed, and the error is the first
  such fault.  Then nothing is asked after it, nothing but questions were asked before, all of which
  were answered, and the registry is as it was.
* A block that is handed to backward sync is answered with `syncing`, whatever becomes of it there.
* It does not matter to any input in which form the processor reports a fault.
* A forkchoice state ends in an error exactly if its head was looked for and could not be read.
  Then the registry is as it was, and nothing was handed to backward sync or to the builder.
* A head for which backward sync is called is answered with `syncing`, and a head for which the
  builder is called is valid, with a payload unless the builder refused. -/
theorem faults_surface (e : Engine) (a : Answers) :
    (∀ payload,
      let r := e.newPayload a payload
      (∀ error, r.result = .error error ↔ r.calls.findSome? (·.fault? a) = some error) ∧
      (∀ error, r.result = .error error → r.badBlocks = e.badBlocks ∧
        ∃ asked last, r.calls = .signal :: asked ++ [last, .count .newPayloadError] ∧
          (∀ c ∈ asked, c.isQuestion = true ∧ c.fault? a = none) ∧
          last.isQuestion = true ∧ last.fault? a = some error) ∧
      ∀ block, .append block ∈ r.calls → r.result = .ok .syncing) ∧
    (∀ process', SameButForm a.process process' →
      ∀ input, e.handle { a with process := process' } input = e.handle a input) ∧
    ∀ state attributes,
      let r := e.forkchoiceUpdated a state attributes
      (∀ error, r.result = .error error ↔ .readHeader state.head ∈ r.calls ∧
        ∃ cause, a.header state.head = .error cause ∧ error = .provider cause) ∧
      (∀ error, r.result = .error error → r = ⟨.error error, e.badBlocks,
        .signal :: (if e.announces then [.announce state] else []) ++
          [.askSyncing, .readHeader state.head]⟩) ∧
      (∀ head, .syncToHead head ∈ r.calls → r.result = .ok (.ofStatus .syncing)) ∧
      ∀ head wanted, .startPayload head wanted ∈ r.calls →
        r.result = .ok ⟨.valid head, (a.startPayload head wanted).toOption⟩ := by
  refine ⟨fun payload => ⟨?_, ?_, ?_⟩, fun process' h => handle_eq_of_sameButForm h e,
    fun state attributes => ⟨?_, ?_, ?_, ?_⟩⟩
  · exact result_newPayload_eq_error_iff e a payload
  · exact fun error => newPayload_of_error
  · exact fun block => result_newPayload_of_append
  · exact result_forkchoiceUpdated_eq_error_iff e a state attributes
  · exact fun error => forkchoiceUpdated_of_error
  · exact fun head => result_forkchoiceUpdated_of_syncToHead
  · exact fun head wanted => result_forkchoiceUpdated_of_startPayload

end ExecutionNode.Engine
