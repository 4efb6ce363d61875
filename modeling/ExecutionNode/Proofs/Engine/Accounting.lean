import ExecutionNode.Proofs.Engine.Contacts
import ExecutionNode.Proofs.Engine.Judging
import ExecutionNode.Proofs.Engine.Metrics
import Mathlib.Algebra.BigOperators.Group.Finset.Basic

/-!
# The books balance

About every question the engine notes that it was asked, by a signal, and how it was answered, by
one count; for a request the latency is noted besides.

* `notes_handle` tells what is noted about a question.  All that the engine does between the signal
  and the count leaves no note (`Plain`), with one lemma for each stage.
* A contact adds its notes to the books (`Dealing.count_signal`, `Dealing.touched_payload`,
  `Dealing.touched_head`), because it comes to no question, to a refusal, or to what the engine does
  about its question.
* The counts of a session are sums over its contacts (`sum_metric_flatMap`), so `books_balance`
  follows from what one contact adds.
-/

namespace ExecutionNode.Engine

variable {e : Engine} {a : Answers}

/-! ### What is noted -/

/-- Whether a call is a note about what was asked and answered. -/
def Call.isNote : Call → Bool
  | .signal => true
  | .count _ => true
  | _ => false

/-- The notes among calls. -/
def notes (calls : List Call) : List Call := calls.filter Call.isNote

/-- A reply on the way to an answer, about which nothing is noted yet. -/
def Plain {ε α : Type} (r : Reply ε α) : Prop := notes r.calls = []

section plain

variable {ε α β : Type}

theorem notes_append (calls later : List Call) :
    notes (calls ++ later) = notes calls ++ notes later := List.filter_append ..

theorem plain_answer (x : α) : Plain (e.answer x : Reply ε α) := rfl

theorem plain_fail (x : ε) : Plain (e.fail x : Reply ε α) := rfl

/-- Questions in front of a reply are not noted. -/
theorem Plain.after {r : Reply ε α} (h : Plain r) {calls : List Call} (hcalls : notes calls = []) :
    Plain (r.after calls) := by
  rw [Plain, calls_reply_after, notes_append, hcalls, h, List.append_nil]

theorem plain_reading {read : Except ReadError α} {go : α → Reply CallError β}
    (h : ∀ x, Plain (go x)) : Plain (e.reading read go) := by
  unfold reading
  split
  · exact plain_fail _
  · exact h _

end plain

/-- What is done to judge a payload is no note. -/
theorem Call.isNote_of_judges {c : Call} (h : c.judges = true) : c.isNote = false := by
  cases c with
  | signal => cases h
  | count _ => cases h
  | _ => rfl

/-- To judge a payload leaves no note. -/
theorem plain_judgePayload (payload : Payload) : Plain (e.judgePayload a payload) := by
  refine List.filter_eq_nil_iff.mpr fun c hc => ?_
  rw [Call.isNote_of_judges (judges_judgePayload payload c hc)]
  exact Bool.false_ne_true

theorem plain_startBuilding (head : SealedHeader) (hash : Hash)
    (attributes : Option PayloadAttributes) : Plain (e.startBuilding a head hash attributes) := by
  unfold startBuilding
  split
  · exact plain_answer _
  · split
    · exact (plain_answer _).after rfl
    · exact plain_answer _

theorem plain_judgeHead (head : Hash) (attributes : Option PayloadAttributes) :
    Plain (e.judgeHead a head attributes) := by
  unfold judgeHead
  split
  · exact plain_answer _
  · refine Plain.after ?_ rfl
    split
    · exact plain_answer _
    · refine (plain_reading fun known => ?_).after rfl
      cases known with
      | none => exact (plain_answer _).after rfl
      | some header => exact plain_startBuilding header head attributes

/-- To answer a forkchoice state leaves no note. -/
theorem plain_judgeForkchoice (state : ForkchoiceState) (attributes : Option PayloadAttributes) :
    Plain (e.judgeForkchoice a state attributes) := by
  unfold judgeForkchoice
  split
  · exact plain_answer _
  · exact (plain_judgeHead _ _).after (by split <;> rfl)

/-- What the engine counts about a question. -/
def counted (e : Engine) (a : Answers) : Ask → List Call
  | .newPayload payload => [.count (newPayloadCounter (e.newPayload a payload).result)]
  | .forkchoice state attributes =>
    forkchoiceCounters (e.forkchoiceUpdated a state attributes).result
  | .getPayload _ => []

/-- About every question the engine notes that it was asked and then what it counts. -/
theorem notes_handle (ask : Ask) :
    notes (e.handle a ask.input).calls = .signal :: counted e a ask := by
  cases ask with
  | newPayload payload =>
    show notes (e.newPayload a payload).calls = _
    rw [newPayload, calls_followedBy, calls_reply_after, notes_append, notes_append,
      plain_judgePayload]
    rfl
  | forkchoice state attributes =>
    show notes (e.forkchoiceUpdated a state attributes).calls = _
    have hcounters : ∀ result, notes (forkchoiceCounters result) = forkchoiceCounters result := by
      rintro (error | updated) <;> rfl
    rw [forkchoiceUpdated, calls_followedBy, calls_reply_after, notes_append, notes_append,
      plain_judgeForkchoice, hcounters]
    rfl
  | getPayload id =>
    show notes (e.getPayload a id).calls = _
    unfold getPayload
    split <;> rfl

/-! ### What a contact adds to the counts -/

/-- The counters of new payloads: one a verdict, and one for faults. -/
def payloadCounters : List Counter :=
  (Verdict.all.map fun v => .newPayload v.name) ++ [.newPayloadError]

/-- The counters of forkchoice states: one a verdict. -/
def headCounters : List Counter := Verdict.all.map fun v => .forkchoice v.name

/-- The counter that a call adds to. -/
def Call.counter? : Call → Option Counter
  | .count counter => some counter
  | _ => none

/-- The counters of a family that calls add to, once for each time. -/
def touched (family : List Counter) (calls : List Call) : List Counter :=
  (calls.filterMap Call.counter?).filter (· ∈ family)

/-- A contact with the engine as it is then and what its surroundings answer. -/
structure Dealing where
  /-- The engine. -/
  engine : Engine
  /-- What its surroundings answer. -/
  answers : Answers
  /-- The contact. -/
  contact : Contact

namespace Dealing

/-- The reply. -/
def reply (d : Dealing) : Reply Empty Said := d.contact.reply d.engine d.answers

/-- Whether a payload is judged: it is asked for and not refused. -/
def isJudged (d : Dealing) : Bool := d.contact.asksPayload && !d.contact.isRefused

/-- The counter of the answer to a payload: that of the verdict, or the one for faults if there is
no status. -/
def payloadCounter (d : Dealing) : Counter :=
  match payloadStatus? d.reply with
  | some status => .newPayload status.verdict.name
  | none => .newPayloadError

/-- The status that a forkchoice state is answered with. -/
def head? (d : Dealing) : Option PayloadStatus :=
  if d.contact.asksHead then headStatus? d.reply else none

end Dealing

/-- The family touched by calls shows in their notes. -/
theorem touched_notes (family : List Counter) (calls : List Call) :
    touched family (notes calls) = touched family calls := by
  rw [touched, touched, notes, List.filterMap_filter]
  congr 1
  refine List.filterMap_congr fun call _ => ?_
  cases call <;> rfl

/-- The signals show in the notes of their calls. -/
theorem count_signal_notes (calls : List Call) :
    (notes calls).count .signal = calls.count .signal := List.count_filter rfl

theorem touched_append (family : List Counter) (calls later : List Call) :
    touched family (calls ++ later) = touched family calls ++ touched family later := by
  rw [touched, List.filterMap_append, List.filter_append]
  rfl

/-- The latency is recorded once or not at all. -/
theorem latency_cases (c : Contact) :
    c.latency = [] ∨ ∃ method, c.latency = [.count (.latency method)] := by
  cases c with
  | direct ask => exact .inl rfl
  | method v ask => exact .inl rfl
  | request r =>
    cases h : r.ask? with
    | none => exact .inl (by rw [Contact.latency, h]; rfl)
    | some asked => exact .inr ⟨_, latency_request h⟩

/-- The latency is no signal. -/
theorem count_signal_latency (c : Contact) : c.latency.count .signal = 0 := by
  rcases latency_cases c with h | ⟨method, h⟩ <;> rw [h] <;> rfl

/-- The latency is in neither family. -/
theorem touched_latency (c : Contact) :
    touched payloadCounters c.latency = [] ∧ touched headCounters c.latency = [] := by
  rcases latency_cases c with h | ⟨method, h⟩
  · rw [h]
    exact ⟨rfl, rfl⟩
  · rw [h]
    cases method <;> exact ⟨rfl, rfl⟩

/-- The counter of a status of a payload is in its family. -/
theorem newPayloadCounter_mem (result : Except CallError PayloadStatus) :
    newPayloadCounter result ∈ payloadCounters := by
  rcases result with error | ⟨_ | error | _ | _ | _, hash⟩ <;>
    simp [newPayloadCounter, payloadCounters, Verdict.all, Verdict.name]

/-- The counter of a status of a head is in its family. -/
theorem forkchoiceCounter_mem (status : PayloadStatus) :
    .forkchoice status.verdict.name ∈ headCounters := by
  rcases status with ⟨_ | error | _ | _ | _, hash⟩ <;>
    simp [headCounters, Verdict.all, Verdict.name]

/-- A question signals once. -/
theorem count_signal_handle (ask : Ask) : (e.handle a ask.input).calls.count .signal = 1 := by
  rw [← count_signal_notes, notes_handle]
  cases ask with
  | newPayload payload => rfl
  | forkchoice state attributes =>
    rw [counted]
    cases (e.forkchoiceUpdated a state attributes).result <;> rfl
  | getPayload id => rfl

/-- A payload touches the counter of its outcome, and no other question touches the family. -/
theorem touched_payload_handle (ask : Ask) :
    touched payloadCounters (e.handle a ask.input).calls =
      match ask with
      | .newPayload payload => [newPayloadCounter (e.newPayload a payload).result]
      | _ => [] := by
  rw [← touched_notes, notes_handle]
  cases ask with
  | newPayload payload =>
    exact List.filter_cons_of_pos (decide_eq_true (newPayloadCounter_mem _))
  | forkchoice state attributes =>
    rw [counted]
    cases (e.forkchoiceUpdated a state attributes).result with
    | error error => rfl
    | ok updated => rcases updated with ⟨⟨_ | error | _ | _ | _, hash⟩, id⟩ <;> rfl
  | getPayload id => rfl

/-- A forkchoice state touches the counter of its status, and no other question touches the
family. -/
theorem touched_head_handle (ask : Ask) :
    touched headCounters (e.handle a ask.input).calls =
      match ask with
      | .forkchoice state attributes =>
        (e.forkchoiceUpdated a state attributes).result.toOption.toList.map
          fun updated => .forkchoice updated.status.verdict.name
      | _ => [] := by
  rw [← touched_notes, notes_handle]
  cases ask with
  | newPayload payload =>
    rw [counted]
    rcases (e.newPayload a payload).result with error | ⟨_ | error | _ | _ | _, hash⟩ <;> rfl
  | forkchoice state attributes =>
    dsimp only [counted]
    cases (e.forkchoiceUpdated a state attributes).result with
    | error error => rfl
    | ok updated => exact List.filter_cons_of_pos (decide_eq_true (forkchoiceCounter_mem _))
  | getPayload id => rfl

namespace Dealing

variable (d : Dealing)

/-- A contact signals once if it comes to a question, and not at all if it does not. -/
theorem count_signal : d.reply.calls.count .signal = if d.contact.isCall then 1 else 0 := by
  cases dealt d.engine d.answers d.contact with
  | other unasked idle unchanged =>
    rw [reply, idle, Contact.isCall, unasked]
    rfl
  | refused asked refused calls unchanged statusless =>
    rw [reply, calls, Contact.isCall, asked, List.count_cons_self, count_signal_latency]
    rfl
  | answered asked accepted calls tells =>
    rw [reply, calls, Contact.isCall, asked, List.count_append, count_signal_handle,
      count_signal_latency]
    rfl

/-- A contact counts a payload exactly if it has one judged, and then it counts the answer. -/
theorem touched_payload :
    touched payloadCounters d.reply.calls = if d.isJudged then [d.payloadCounter] else [] := by
  cases dealt d.engine d.answers d.contact with
  | other unasked idle unchanged =>
    rw [reply, idle, isJudged, Contact.asksPayload, unasked]
    rfl
  | refused asked refused calls unchanged statusless =>
    have hjudged : d.isJudged = false := by
      rw [isJudged, Contact.isRefused, asked]
      simp [refused]
    rw [hjudged, reply, calls]
    exact (touched_latency _).1
  | @answered v ask asked accepted calls tells =>
    rw [reply, calls, touched_append, (touched_latency _).1, List.append_nil,
      touched_payload_handle, isJudged, Contact.isRefused, Contact.asksPayload, asked]
    cases ask with
    | newPayload payload =>
      have hstatus := tells.payload payload rfl
      simp only [Option.any_some, accepted, Bool.not_false, Bool.and_true, if_true,
        payloadCounter, reply, hstatus]
      cases (d.engine.newPayload d.answers payload).result <;> rfl
    | forkchoice state attributes => rfl
    | getPayload id => rfl

/-- A contact counts a head exactly if a forkchoice state is answered with a status, and then it
counts the status. -/
theorem touched_head :
    touched headCounters d.reply.calls =
      d.head?.toList.map fun status => .forkchoice status.verdict.name := by
  cases dealt d.engine d.answers d.contact with
  | other unasked idle unchanged =>
    rw [reply, idle, head?, Contact.asksHead, unasked]
    rfl
  | @refused v ask asked refused calls unchanged statusless =>
    have hnone : d.head? = none := by
      rw [head?, Contact.asksHead, asked]
      cases ask with
      | forkchoice state attributes => exact (if_pos rfl).trans (statusless state attributes rfl)
      | _ => rfl
    rw [hnone, reply, calls]
    exact (touched_latency _).2
  | @answered v ask asked accepted calls tells =>
    rw [reply, calls, touched_append, (touched_latency _).2, List.append_nil,
      touched_head_handle, head?, Contact.asksHead, asked]
    cases ask with
    | newPayload payload => rfl
    | forkchoice state attributes =>
      have hstatus := tells.head state attributes rfl
      dsimp only [Option.any_some]
      rw [if_pos rfl, reply, hstatus]
      cases (d.engine.forkchoiceUpdated d.answers state attributes).result <;> rfl
    | getPayload id => rfl

/-- A refused contact signals, and a request has its latency recorded besides; that is all. -/
theorem reply_of_isRefused (h : d.contact.isRefused = true) :
    d.reply.calls = .signal :: d.contact.latency ∧ d.reply.badBlocks = d.engine.badBlocks := by
  cases dealt d.engine d.answers d.contact with
  | other unasked idle unchanged =>
    rw [Contact.isRefused, unasked] at h
    cases h
  | refused asked refused calls unchanged statusless => exact ⟨calls, unchanged⟩
  | answered asked accepted calls tells =>
    rw [Contact.isRefused, asked] at h
    exact absurd (h.symm.trans accepted) Bool.noConfusion

/-- Nothing is done about a contact that comes to no question. -/
theorem reply_of_not_isCall (h : d.contact.isCall = false) :
    d.reply.calls = [] ∧ d.reply.badBlocks = d.engine.badBlocks := by
  cases dealt d.engine d.answers d.contact with
  | other unasked idle unchanged => exact ⟨idle, unchanged⟩
  | refused asked refused calls unchanged statusless =>
    rw [Contact.isCall, asked] at h
    cases h
  | answered asked accepted calls tells =>
    rw [Contact.isCall, asked] at h
    cases h

end Dealing

/-! ### Sessions of contacts -/

/-- The dealings of a session: contacts in order, each with what the surroundings answer then. -/
def dealings : Engine → List (Answers × Contact) → List Dealing
  | _, [] => []
  | e, (a, c) :: session => ⟨e, a, c⟩ :: dealings (e.afterReply (c.reply e a)) session

/-- What is done at most once for every member of a list is done as often as the list has members
for which it is done. -/
theorem length_flatMap_eq_countP {α β : Type} {f : α → List β} {p : α → Bool}
    (h : ∀ x, (f x).length = if p x then 1 else 0) (l : List α) :
    (l.flatMap f).length = l.countP p := by
  induction l with
  | nil => rfl
  | cons x l ih => rw [List.flatMap_cons, List.length_append, ih, h, List.countP_cons, Nat.add_comm]

/-- The counters of a family have counts that sum to how often the family was touched. -/
theorem sum_metric {family : List Counter} (hfamily : family.Nodup) (countsSignals : Bool)
    (calls : List Call) :
    (family.map fun c => metric countsSignals calls c.name).sum =
      (touched family calls).length := by
  have hcount : ∀ c ∈ family,
      metric countsSignals calls c.name = (touched family calls).count c := by
    intro c hc
    rw [metric_counter, touched,
      List.count_filter (p := fun x => decide (x ∈ family)) (decide_eq_true hc),
      List.count_filterMap]
    refine List.countP_congr fun call _ => ?_
    cases call <;> simp [Call.counter?]
  rw [List.map_congr_left hcount, ← List.sum_toFinset _ hfamily]
  have hmem : ∀ c ∈ (touched family calls : Multiset Counter), c ∈ family.toFinset := by
    intro c hc
    exact List.mem_toFinset.mpr (of_decide_eq_true (List.mem_filter.mp (Multiset.mem_coe.mp hc)).2)
  simpa only [Multiset.coe_count, Multiset.coe_card] using Multiset.sum_count_eq_card hmem

/-- The counts of a family sum to the number of contacts that touch it, if each touches it at most
once. -/
theorem sum_metric_flatMap {family : List Counter} (hfamily : family.Nodup) {p : Dealing → Bool}
    (h : ∀ d, (touched family d.reply.calls).length = if p d then 1 else 0)
    (ds : List Dealing) (countsSignals : Bool) :
    (family.map fun c => metric countsSignals (ds.flatMap (·.reply.calls)) c.name).sum =
      ds.countP p := by
  rw [sum_metric hfamily, ← length_flatMap_eq_countP h ds, touched, List.filterMap_flatMap,
    List.filter_flatMap]
  rfl

/-- **The books balance.** For every session of contacts, direct, by method or by request, and
whatever the surroundings answer to each of them:

* A contact signals once if it comes to a question and not at all otherwise, and the signals are
  counted as often as there are contacts that come to a question.
* A contact touches a counter of new payloads exactly if it asks for a payload and is not refused,
  and then it touches the counter of its answer, once.  The counts of these counters sum to the
  number of such contacts.
* A contact touches a counter of forkchoice states exactly if it is answered with the status of a
  head, and then it touches the counter of the status, once.  The counts of these counters sum to
  the number of such contacts.
* A contact that is refused for its withdrawals only signals, apart from the latency of a request,
  and a contact that comes to no question does nothing at all. Neither changes what is recorded. -/
theorem books_balance (e : Engine) (session : List (Answers × Contact)) :
    let ds := dealings e session
    let calls := ds.flatMap (·.reply.calls)
    ((∀ d ∈ ds, d.reply.calls.count .signal = if d.contact.isCall then 1 else 0) ∧
      metric true calls "engine.calls" = ds.countP (·.contact.isCall)) ∧
    ((∀ d ∈ ds, touched payloadCounters d.reply.calls =
        if d.isJudged then [d.payloadCounter] else []) ∧
      ∀ countsSignals, (payloadCounters.map fun c => metric countsSignals calls c.name).sum =
        ds.countP (·.isJudged)) ∧
    ((∀ d ∈ ds, touched headCounters d.reply.calls =
        d.head?.toList.map fun status => .forkchoice status.verdict.name) ∧
      ∀ countsSignals, (headCounters.map fun c => metric countsSignals calls c.name).sum =
        ds.countP (·.head?.isSome)) ∧
    (∀ d ∈ ds, d.contact.isRefused = true →
      d.reply.calls = .signal :: d.contact.latency ∧ d.reply.badBlocks = d.engine.badBlocks) ∧
    ∀ d ∈ ds, d.contact.isCall = false →
      d.reply.calls = [] ∧ d.reply.badBlocks = d.engine.badBlocks := by
  intro ds calls
  refine ⟨⟨fun d _ => d.count_signal, ?_⟩, ⟨fun d _ => d.touched_payload, ?_⟩,
    ⟨fun d _ => d.touched_head, ?_⟩, fun d _ => d.reply_of_isRefused,
    fun d _ => d.reply_of_not_isCall⟩
  · rw [metric_signal, List.count_eq_length_filter, List.filter_flatMap]
    refine length_flatMap_eq_countP (fun d => ?_) ds
    rw [← List.count_eq_length_filter]
    exact d.count_signal
  · refine sum_metric_flatMap (by decide) (fun d => ?_) ds
    rw [d.touched_payload]
    split <;> rfl
  · refine sum_metric_flatMap (by decide) (fun d => ?_) ds
    rw [d.touched_head]
    cases d.head? <;> rfl

end ExecutionNode.Engine
