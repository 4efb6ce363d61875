import ExecutionNode.Proofs.Sync.Following
import ExecutionNode.Proofs.Sync.Marks
import Mathlib.Data.List.TakeWhile

/-!
# A run that ends by itself

Whether the download should end is asked at four places: when a synchronizer is assembled, when a
catch-up is complete, before each time blocks are asked for, and after full sync.  Nobody else
remembers the answers.  That they agree rests on one assumption, that what is asked stays true once
it is true (`Lasting`), for otherwise a run could end because the download is over and be told
afterwards that it is not.

* `Pursues.told` is the argument for one step: if it ends a run well that is still current, then
  some earlier answer was that the download is over, so the last one is, and that is noted.
* `Undisturbed.isCurrent`: a run is current until it ends, as long as nobody stops the synchronizer
  or starts it over.
* `Asked` says of calls in a row that it is asked each time before blocks are asked for.
* `Followed` is the invariant for the heads: full sync sets those that it received, and a run has
  begun to follow the chain when it receives one.
* `ended_run_reached_end` puts them together for whole histories.
-/

namespace ExecutionNode.Sync

/-! ### Answers -/

/-- The answer to whether the download should end that a call keeps. -/
def Call.answer? : Call → Option Bool
  | consultTermination isOver => some isOver
  | _ => none

/-- The local head that a call sets. -/
def Call.localHead? : Call → Option UInt64
  | change (.localHead head) => some head
  | _ => none

/-- The calls of a run that follows the chain, except that it sets heads. -/
def Call.isLate : Call → Bool
  | consultTermination _ => true
  | importBatch => true
  | change (.terminal reached) => reached
  | _ => false

/-- Once an answer is that the download is over, all later ones are. -/
def Lasting (answers : List Bool) : Prop :=
  answers.Pairwise fun earlier later => earlier = true → later = true

/-- What was answered before is the answer. -/
theorem Lasting.eq_true {earlier later : List Bool} {answer : Bool}
    (h : Lasting (earlier ++ answer :: later)) (htrue : true ∈ earlier) : answer = true :=
  (List.pairwise_append.mp h).2.2 true htrue answer List.mem_cons_self rfl

/-- What is answered later was not answered otherwise before. -/
theorem Lasting.true_not_mem {earlier later : List Bool}
    (h : Lasting (earlier ++ false :: later)) : true ∉ earlier :=
  fun htrue => Bool.false_ne_true (h.eq_true htrue)

/-- What a run says in the end is that the download is over, if that was an answer before. -/
theorem mem_closing {r : Replies} {earlier : List Bool}
    (h : Lasting (earlier ++ (closing r).filterMap Call.answer?)) (htrue : true ∈ earlier) :
    .change (.terminal true) ∈ closing r := by
  have hover : r.overAtEnd = true := h.eq_true htrue
  unfold closing
  rw [hover]
  exact List.mem_cons_of_mem _ List.mem_cons_self

namespace Synchronizer

variable {s : Synchronizer} {run : Nat} {r : Replies}

/-- The answers to whether the download should end, in their order. -/
def answers (s : Synchronizer) : List Bool := s.book.calls.filterMap Call.answer?

/-- The answers are among the calls by which the chain is followed. -/
theorem filterMap_answer?_filter (calls : List Call) :
    (calls.filter Call.followsChain).filterMap Call.answer? = calls.filterMap Call.answer? := by
  rw [List.filterMap_filter]
  congr 1
  funext c
  cases c with
  | change c => cases c <;> rfl
  | _ => rfl

/-- An act adds the answers to what it asks. -/
theorem answers_act (s : Synchronizer) (a : Act) :
    (s.act a).answers = s.answers ++ (s.newChain a).filterMap Call.answer? := by
  unfold answers newChain
  rw [calls_act, List.filterMap_append, filterMap_answer?_filter]

/-- Answers are never forgotten. -/
theorem answers_prefix_after (s : Synchronizer) (h : List Act) :
    s.answers <+: (s.after h).answers :=
  after_induction (fun t => s.answers <+: t.answers) (fun _ => True) (List.prefix_refl _)
    (fun t a ht _ => ht.trans ⟨_, (t.answers_act a).symm⟩) fun _ _ => trivial

/-- What lasts to the end of a history lasts to any moment of it. -/
theorem lasting_of_after {isOver : Bool} {h : List Act}
    (hlasting : Lasting (isOver :: (s.after h).answers)) : Lasting (isOver :: s.answers) :=
  hlasting.sublist ((s.answers_prefix_after h).sublist.cons_cons isOver)

/-! ### One step -/

/-- What a run pursues is late. -/
theorem Pursues.isLate {calls : List Call} {x : Run} (h : Pursues s r run calls x) :
    ∀ c ∈ calls, c.isLate = true := by
  have hclosing : ∀ c ∈ closing r, c.isLate = true := by
    unfold closing
    refine List.forall_mem_cons.mpr ⟨rfl, ?_⟩
    split
    · exact List.forall_mem_singleton.mpr rfl
    · exact List.forall_mem_nil _
  cases h with
  | rests => exact List.forall_mem_nil _
  | leaves => exact List.forall_mem_nil _
  | lands => exact List.forall_mem_cons.mpr ⟨rfl, List.forall_mem_singleton.mpr rfl⟩
  | concludes => exact hclosing
  | asks => exact List.forall_mem_cons.mpr ⟨rfl, List.forall_mem_singleton.mpr rfl⟩
  | ends => exact List.forall_mem_cons.mpr ⟨rfl, hclosing⟩
  | stops => exact hclosing

/-- **A run that is still current when it ends well says that the download is over.** Nothing else
ends it: to ask for nothing, it must have been answered so, and that answer lasts. -/
theorem Pursues.told {calls : List Call} (h : Pursues s r run calls (.ended (.ok ())))
    (hsound : s.wiring.Sound) (hcurrent : s.isCurrent run = true) {isOver : Bool}
    (hover : s.fullSync = none → isOver = true) {earlier : List Bool}
    (hlasting : Lasting (isOver :: earlier ++ calls.filterMap Call.answer?)) :
    .change (.terminal true) ∈ calls := by
  generalize hx : Run.ended (.ok ()) = x at h
  cases h with
  | rests hne => exact absurd hx.symm hne
  | leaves hovertaken =>
    rw [hcurrent] at hovertaken
    cases hovertaken
  | lands => exact List.mem_cons_of_mem _ List.mem_cons_self
  | concludes hnone =>
    rw [hover hnone] at hlasting
    exact mem_closing hlasting List.mem_cons_self
  | asks => cases hx
  | ends =>
    have hlater : Lasting ((isOver :: earlier ++ [true]) ++
        (closing r).filterMap Call.answer?) := by
      rw [List.append_assoc]
      exact hlasting
    exact List.mem_cons_of_mem _ (mem_closing hlater (by simp))
  | stops hf hrun hstopped =>
    rw [hasStopped_fullSync_of_current hsound hcurrent hrun hf] at hstopped
    cases hstopped

/-- No step of a run says that the download is not over. -/
theorem terminal_false_not_mem (hsound : s.wiring.Sound) (r : Replies) (run : Nat)
    (event : Event) : .change (.terminal false) ∉ s.newCalls (.step r run event) := by
  intro hmem
  have hchain : .change (.terminal false) ∈ s.newChain (.step r run event) :=
    List.mem_filter.mpr ⟨hmem, rfl⟩
  rcases resume_cases hsound r run event with hsame | ⟨front, tail, x, -, hdoes, hfront, htail⟩
  · rw [newChain_of_act_eq (by exact hsame)] at hchain
    cases hchain
  · rw [hdoes.newChain_eq] at hchain
    rcases List.mem_append.mp hchain with hfirst | hlast
    · rcases hfront _ hfirst with hearly | hstart
      · cases hearly
      · cases hstart
    · cases htail.isLate _ hlast

/-! ### Runs that nobody disturbs -/

/-- Since a run began, nobody stopped the synchronizer or started it over. -/
def Undisturbed (s : Synchronizer) (run : Nat) (h : List Act) : Prop :=
  ∀ past a rest, h = past ++ a :: rest → run < (s.after past).runs.length → ¬ a.Ends

/-- A run ends well with an act. -/
def EndsWell (run : Nat) (s : Synchronizer) (a : Act) : Prop :=
  s.runs[run]? ≠ some (.ended (.ok ())) ∧ (s.act a).runs[run]? = some (.ended (.ok ()))

/-- What nobody disturbs nobody disturbed before. -/
theorem Undisturbed.of_concat {h : List Act} {a : Act} (hh : s.Undisturbed run (h ++ [a])) :
    s.Undisturbed run h := by
  rintro past b rest rfl hlt
  exact hh past b (rest ++ [a]) (by simp) hlt

/-- A run that was just added is current. -/
theorem isCurrent_act_of_new (hnone : s.runs[run]? = none) {a : Act} {x : Run}
    (hx : (s.act a).runs[run]? = some x) : (s.act a).isCurrent run = true := by
  have hge : s.runs.length ≤ run := List.getElem?_eq_none_iff.mp hnone
  have hlt : run < (s.act a).runs.length := (List.getElem?_eq_some_iff.mp hx).1
  have hsame : (s.act a).runs.length = s.runs.length → (s.act a).isCurrent run = true :=
    fun hlength => absurd hlt (by omega)
  cases a with
  | start r =>
    cases hstart : s.start r with
    | error e => exact hsame (by rw [act_start_of_error hstart])
    | ok t =>
      rw [act_start_of_ok hstart, s.length_runs_start hstart] at hlt
      obtain rfl : run = s.runs.length := by omega
      rw [act_start_of_ok hstart]
      exact s.isCurrent_start hstart
  | stop r => exact hsame (congrArg List.length (s.runs_stop r))
  | resync r r' =>
    have hlength : (s.act (.resync r r')).runs.length = _ := s.length_runs_resync r r'
    obtain rfl : run = s.runs.length := by omega
    exact s.isCurrent_resync r r'
  | step r other event => exact hsame (s.touches_resume r other event).le.1
  | announce state => exact hsame (s.untouched_announce state).runs
  | operate op => exact hsame rfl

/-- A current run stays so as long as it has not ended, nobody stops the synchronizer and nobody
starts it over. -/
theorem isCurrent_act_of_unended (hcurrent : s.isCurrent run = true) {a : Act} (ha : ¬ a.Ends)
    (hbefore : ∀ result, s.runs[run]? ≠ some (.ended result))
    (hafter : ∀ result, (s.act a).runs[run]? ≠ some (.ended result)) :
    (s.act a).isCurrent run = true := by
  have hlast := eq_length_of_isCurrent hcurrent
  have hkept : ∀ {t : Synchronizer}, t.running = s.running →
      t.runs.length = s.runs.length → t.isCurrent run = true := by
    intro t hrunning hlength
    rw [isCurrent, hrunning, hlength]
    exact hcurrent
  cases a with
  | start r =>
    rw [act_start_of_error (start_of_running (isCurrent_iff.mp hcurrent).1 r)]
    exact hcurrent
  | stop r => exact absurd trivial ha
  | resync r r' => exact absurd trivial ha
  | step r other event =>
    have hlength := (s.touches_resume r other event).le.1
    refine hkept ?_ hlength
    by_cases hother : other = run
    · subst hother
      have hleaves : Leaves other s (s.act (.step r other event)) := leaves_resume hbefore r event
      generalize s.act (.step r other event) = t at hleaves hafter
      cases hleaves with
      | unended _ hsame => exact hsame
      | @ended u htouches result =>
        refine absurd ?_ (hafter result)
        rw [runs_finish]
        exact List.getElem?_set_self (by rw [htouches.le.1]; omega)
    · rcases Nat.lt_or_gt_of_ne hother with holder | hmissing
      · exact ((s.touches_resume r other event).untouched_of_older (by omega)).running
      · exact congrArg Synchronizer.running
          (resume_of_none (List.getElem?_eq_none (by omega)) r event)
  | announce state =>
    exact hkept (s.untouched_announce state).running (s.untouched_announce state).runs
  | operate op => exact hkept rfl rfl

/-- **A run that nobody disturbs is current until it ends.** -/
theorem Undisturbed.isCurrent (hruns : s.runs = []) {h : List Act} (hh : s.Undisturbed run h)
    {x : Run} (hx : (s.after h).runs[run]? = some x) (hended : ∀ result, x ≠ .ended result) :
    (s.after h).isCurrent run = true := by
  induction h using List.reverseRecOn generalizing x with
  | nil =>
    rw [after_nil, hruns] at hx
    cases hx
  | append_singleton h a ih =>
    rw [after_concat] at hx ⊢
    cases hold : (s.after h).runs[run]? with
    | none => exact isCurrent_act_of_new hold hx
    | some y =>
      have hlt : run < (s.after h).runs.length := (List.getElem?_eq_some_iff.mp hold).1
      have hbefore : ∀ result, y ≠ .ended result := by
        rintro result rfl
        obtain ⟨x', hx', hcases⟩ := exists_run_act hold a
        obtain rfl := Option.some.inj (hx.symm.trans hx')
        rcases hcases with rfl | ⟨r, event, rfl, -⟩
        · exact hended result rfl
        · rw [show (s.after h).act (.step r run event) = s.after h from
            resume_of_ended hold r event, hold] at hx
          exact hended result (Option.some.inj hx).symm
      refine isCurrent_act_of_unended (ih hh.of_concat hold hbefore) (hh h a [] rfl hlt) ?_ ?_
      · exact fun result heq => hbefore result (Option.some.inj (hold.symm.trans heq))
      · exact fun result heq => hended result (Option.some.inj (hx.symm.trans heq))

/-- A run ends well only with a step of its own. -/
theorem EndsWell.exists_step {a : Act} (h : EndsWell run s a) :
    ∃ x, s.runs[run]? = some x ∧ (∀ result, x ≠ .ended result) ∧
      ∃ r event, a = .step r run event := by
  obtain ⟨hbefore, hafter⟩ := h
  rcases run_act_cases s a hafter with ⟨x, hx, rfl | ⟨r, event, rfl, -⟩⟩ | hnew
  · exact absurd hx hbefore
  · refine ⟨x, hx, ?_, r, event, rfl⟩
    rintro result rfl
    rw [show s.act (.step r run event) = s from resume_of_ended hx r event] at hafter
    exact hbefore hafter
  · exact hnew.elim

end Synchronizer

/-! ### It is asked each time -/

/-- Before blocks are asked for it is asked whether the download should end, and it should not. -/
def Asked (calls : List Call) : Prop :=
  ∀ before after, calls = before ++ .importBatch :: after →
    ∃ earlier, before = earlier ++ [.consultTermination false]

/-- Where no blocks are asked for there is nothing to ask before. -/
theorem asked_of_not_mem {calls : List Call} (h : .importBatch ∉ calls) : Asked calls := by
  rintro before after rfl
  exact absurd (List.mem_append_right _ List.mem_cons_self) h

/-- Of two lists of calls one after the other, each has what comes before its own. -/
theorem Asked.append {earlier later : List Call} (h : Asked earlier) (h' : Asked later) :
    Asked (earlier ++ later) := by
  intro before after heq
  rcases List.append_eq_append_iff.mp heq with ⟨more, rfl, hlater⟩ | ⟨more, hearlier, hrest⟩
  · obtain ⟨between, rfl⟩ := h' more after hlater
    exact ⟨earlier ++ between, (List.append_assoc ..).symm⟩
  · cases more with
    | nil =>
      obtain ⟨between, hnil⟩ := h' [] after hrest.symm
      exact absurd hnil.symm (List.append_ne_nil_of_right_ne_nil _ (List.cons_ne_nil _ _))
    | cons c more =>
      obtain ⟨rfl, rfl⟩ := List.cons.inj hrest
      exact h before more hearlier

namespace Synchronizer

variable {s s₀ : Synchronizer} {run : Nat} {r : Replies}

/-- The condition is asked before a run asks for blocks. -/
theorem Pursues.asked {calls : List Call} {x : Run} (h : Pursues s r run calls x) :
    Asked calls := by
  have hclosing : .importBatch ∉ closing r := by
    unfold closing
    split <;> simp
  cases h with
  | rests => exact asked_of_not_mem List.not_mem_nil
  | leaves => exact asked_of_not_mem List.not_mem_nil
  | lands => exact asked_of_not_mem (by simp)
  | concludes => exact asked_of_not_mem hclosing
  | asks =>
    intro before after heq
    cases before with
    | nil => cases heq
    | cons c before =>
      obtain ⟨rfl, hrest⟩ := List.cons.inj heq
      cases before with
      | nil => exact ⟨[], rfl⟩
      | cons c before => exact absurd (List.cons.inj hrest).2 (by simp)
  | ends => exact asked_of_not_mem (by simpa using hclosing)
  | stops => exact asked_of_not_mem hclosing

/-- **Whatever happens, it is asked each time.** -/
theorem asked_newChain (hsound : s.wiring.Sound) (a : Act) : Asked (s.newChain a) := by
  by_cases ha : ∃ r run event, a = .step r run event
  · obtain ⟨r, run, event, rfl⟩ := ha
    rcases resume_cases hsound r run event with hsame | ⟨front, tail, x', -, hdoes, hfront, htail⟩
    · rw [newChain_of_act_eq (by exact hsame)]
      exact asked_of_not_mem List.not_mem_nil
    · rw [hdoes.newChain_eq]
      refine (asked_of_not_mem fun hmem => ?_).append htail.asked
      rcases hfront _ hmem with hearly | hstart
      · cases hearly
      · cases hstart
  · rw [newChain_of_not_step s fun r run event h => ha ⟨r, run, event, h⟩]
    exact asked_of_not_mem List.not_mem_nil

/-- **In a history the condition is asked each time** before blocks are asked for. -/
theorem Pristine.asked_after (hs : s.Pristine) (h : List Act) : Asked (s.after h).chain := by
  have hboth : (s.after h).wiring.Sound ∧ Asked (s.after h).chain := by
    refine after_induction (fun t => t.wiring.Sound ∧ Asked t.chain) (fun _ => True)
      ⟨hs.sound, ?_⟩ (fun t a ht _ => ⟨sound_act ht.1 a, ?_⟩) fun _ _ => trivial
    · unfold chain Logbook.only
      rw [hs.calls]
      exact asked_of_not_mem List.not_mem_nil
    · rw [chain_act]
      exact ht.2.append (asked_newChain ht.1 a)
  exact hboth.2

/-! ### The heads -/

/-- What is collected over a history, act by act. -/
def gather {α : Type} (f : Synchronizer → Act → List α) (s : Synchronizer) : List Act → List α
  | [] => []
  | a :: h => f s a ++ gather f (s.act a) h

/-- What the last of a history adds comes last. -/
theorem gather_concat {α : Type} (f : Synchronizer → Act → List α) (s : Synchronizer)
    (h : List Act) (a : Act) : s.gather f (h ++ [a]) = s.gather f h ++ f (s.after h) a := by
  induction h generalizing s with
  | nil => exact List.append_nil _
  | cons b h ih => exact (congrArg _ (ih (s.act b))).trans (List.append_assoc ..).symm

/-- What a run does to follow the chain when something happens: nothing but in its steps. -/
def ownChain (run : Nat) (s : Synchronizer) : Act → List Call
  | .step r other event => if other = run then s.newChain (.step r other event) else []
  | _ => []

/-- The heads that a run receives when something happens: those that the blocks lead to which it
waits for. -/
def received (run : Nat) (s : Synchronizer) : Act → List UInt64
  | .step _ other event =>
    if other = run then
      match s.runs[run]? with
      | some (.following _ stage) => FullSync.received stage event
      | _ => []
    else []
  | _ => []

/-- What a run did in a history to follow the chain. -/
def chainOf (s : Synchronizer) (run : Nat) (h : List Act) : List Call := s.gather (ownChain run) h

/-- The heads that a run received in a history. -/
def headsReceived (s : Synchronizer) (run : Nat) (h : List Act) : List UInt64 :=
  s.gather (received run) h

/-- The heads that are set from the beginning of full sync on. -/
def headsSet (calls : List Call) : List UInt64 :=
  (calls.dropWhile (· ≠ .startFullSync)).filterMap Call.localHead?

/-- Before full sync begins it sets no heads. -/
theorem headsSet_append_of_not_mem {calls : List Call} (h : .startFullSync ∉ calls)
    (more : List Call) : headsSet (calls ++ more) = headsSet more := by
  have hall : ∀ c ∈ calls, decide (c ≠ .startFullSync) = true := by
    rintro c hc
    exact decide_eq_true fun heq => h (heq ▸ hc)
  unfold headsSet
  rw [List.dropWhile_append_of_pos hall]

/-- Once full sync has begun it sets all the heads. -/
theorem headsSet_append_of_mem {calls : List Call} (h : .startFullSync ∈ calls)
    (more : List Call) :
    headsSet (calls ++ more) = headsSet calls ++ more.filterMap Call.localHead? := by
  have hsome : (calls.dropWhile (· ≠ .startFullSync)).isEmpty = false := by
    rw [List.isEmpty_eq_false_iff]
    intro hnil
    have hall := List.dropWhile_eq_nil_iff.mp hnil _ h
    simp at hall
  unfold headsSet
  rw [List.dropWhile_append, hsome, if_neg Bool.false_ne_true, List.filterMap_append]

/-- Where full sync does not begin it sets no heads. -/
theorem headsSet_of_not_mem {calls : List Call} (h : .startFullSync ∉ calls) :
    headsSet calls = [] := by
  rw [← List.append_nil calls, headsSet_append_of_not_mem h]
  rfl

/-- The heads of a run in a history. -/
structure Followed (run : Nat) (s : Synchronizer) (h : List Act) : Prop where
  /-- Before the run is past catching up, it has not begun to follow the chain. -/
  unbegun : (∀ x, (s.after h).runs[run]? = some x → ¬ x.IsPast) →
    .startFullSync ∉ s.chainOf run h
  /-- While it follows the chain, it has begun to. -/
  begun : ∀ arming stage, (s.after h).runs[run]? = some (.following arming stage) →
    .startFullSync ∈ s.chainOf run h
  /-- The heads that were set are those that were received. -/
  heads : headsSet (s.chainOf run h) = s.headsReceived run h

/-- Full sync neither begins nor sets heads where a run pursues something. -/
theorem Pursues.headsSet_eq {calls : List Call} {x : Run} (h : Pursues s r run calls x) :
    .startFullSync ∉ calls ∧ calls.filterMap Call.localHead? = [] := by
  refine ⟨fun hmem => ?_, List.filterMap_eq_nil_iff.mpr fun c hc => ?_⟩
  · cases h.isLate _ hmem
  · have hlate := h.isLate c hc
    cases c with
    | change c =>
      cases c with
      | localHead head => cases hlate
      | _ => rfl
    | _ => rfl

/-- Those heads are set that were received. -/
theorem filterMap_setHeads (heads : List UInt64) :
    (setHeads heads).filterMap Call.localHead? = heads := by
  unfold setHeads
  rw [List.filterMap_map]
  exact List.filterMap_some

/-- A run that is not past catching up has not begun to follow the chain. -/
theorem Opens.start_not_mem {calls : List Call} {x : Run} (h : Opens calls x) (hx : ¬ x.IsPast) :
    .startFullSync ∉ calls := by
  cases h with
  | holds hcalls _ => exact fun hmem => Bool.false_ne_true (hcalls _ hmem)
  | begins _ hpast => exact absurd hpast hx

/-- A run that follows the chain has begun to. -/
theorem Opens.start_mem {calls : List Call} {arming : Nat} {stage : FullSync.Stage}
    (h : Opens calls (.following arming stage)) : .startFullSync ∈ calls := by
  generalize hx : Run.following arming stage = x at h
  cases h with
  | holds _ hx' => exact absurd hx.symm (hx' arming stage)
  | begins _ _ => exact List.mem_append_right _ List.mem_cons_self

/-- Full sync sets no heads before it waits for any. -/
theorem Opens.headsSet_eq {front tail : List Call} {x : Run} (h : Opens front x)
    (htail : Pursues s r run tail x) : headsSet (front ++ tail) = [] := by
  have hearly : ∀ {calls : List Call}, (∀ c ∈ calls, c.isEarly = true) → .startFullSync ∉ calls :=
    fun hcalls hmem => Bool.false_ne_true (hcalls _ hmem)
  obtain ⟨hstart, hheads⟩ := htail.headsSet_eq
  cases h with
  | holds hcalls _ =>
    rw [headsSet_append_of_not_mem (hearly hcalls)]
    exact headsSet_of_not_mem hstart
  | begins hcalls _ =>
    rw [List.append_assoc, headsSet_append_of_not_mem (hearly hcalls),
      headsSet_append_of_mem List.mem_cons_self, hheads]
    rfl

/-- A run has done nothing at first. -/
theorem followed_nil (hruns : s.runs = []) (run : Nat) : Followed run s [] where
  unbegun _ := List.not_mem_nil
  begun arming stage hrun := by
    rw [after_nil, hruns] at hrun
    cases hrun
  heads := rfl

/-- What is no step of a run leaves it and what it did. -/
theorem Followed.concat_other {h : List Act} (hh : Followed run s h) {a : Act}
    (hchain : ownChain run (s.after h) a = []) (hreceived : received run (s.after h) a = [])
    (hruns : ∀ x, (s.after h).runs[run]? = some x → ((s.after h).act a).runs[run]? = some x)
    (hnew : ∀ x, ((s.after h).act a).runs[run]? = some x →
      (s.after h).runs[run]? = some x ∨ x.IsNew) : Followed run s (h ++ [a]) := by
  have hsame : s.chainOf run (h ++ [a]) = s.chainOf run h := by
    unfold chainOf
    rw [gather_concat, hchain, List.append_nil]
  refine ⟨?_, ?_, ?_⟩
  · rw [hsame, after_concat]
    exact fun hpast => hh.unbegun fun x hx => hpast x (hruns x hx)
  · rw [hsame, after_concat]
    intro arming stage hrun
    rcases hnew _ hrun with hold | hfollowing
    · exact hh.begun arming stage hold
    · exact hfollowing.elim
  · rw [hsame, hh.heads]
    unfold headsReceived
    rw [gather_concat, hreceived, List.append_nil]

/-- What a run did when it makes a step. -/
theorem chainOf_concat_step (s : Synchronizer) (run : Nat) (h : List Act) (r : Replies)
    (event : Event) : s.chainOf run (h ++ [.step r run event]) =
      s.chainOf run h ++ (s.after h).newChain (.step r run event) := by
  unfold chainOf
  rw [gather_concat, ownChain, if_pos rfl]

/-- What a run receives with a step of its own. -/
theorem received_step (s : Synchronizer) (run : Nat) (r : Replies) (event : Event) :
    received run s (.step r run event) =
      match s.runs[run]? with
      | some (.following _ stage) => FullSync.received stage event
      | _ => [] :=
  if_pos rfl

/-- What a run received when it makes a step that it does not receive anything with. -/
theorem headsReceived_concat_of_nil {h : List Act} {a : Act}
    (hreceived : received run (s.after h) a = []) :
    s.headsReceived run (h ++ [a]) = s.headsReceived run h := by
  unfold headsReceived
  rw [gather_concat, hreceived, List.append_nil]

/-- A step of a run that does not follow the chain yet sets no heads of full sync. -/
theorem Followed.concat_early {h : List Act} (hh : Followed run s h) {x : Run}
    (hx : (s.after h).runs[run]? = some x) (hpast : ¬ x.IsPast) (r : Replies) (event : Event) :
    Followed run s (h ++ [.step r run event]) := by
  have hunbegun : .startFullSync ∉ s.chainOf run h :=
    hh.unbegun fun y hy => Option.some.inj (hx.symm.trans hy) ▸ hpast
  have hreceived : received run (s.after h) (.step r run event) = [] := by
    rw [received_step, hx]
    cases x with
    | following _ _ => exact absurd trivial hpast
    | _ => rfl
  obtain ⟨front, tail, x', hdoes, hopens, hpursues⟩ := goes_resume hx hpast r event
  have hrun : ((s.after h).act (.step r run event)).runs[run]? = some x' := by
    rw [show ((s.after h).act (.step r run event)).runs = _ from hdoes.runs]
    exact List.getElem?_set_self (List.getElem?_eq_some_iff.mp hx).1
  refine ⟨?_, ?_, ?_⟩
  all_goals rw [chainOf_concat_step, hdoes.newChain_eq]
  · intro hstill
    rw [after_concat] at hstill
    simp only [List.mem_append, not_or]
    exact ⟨hunbegun, hopens.start_not_mem (hstill x' hrun), hpursues.headsSet_eq.1⟩
  · intro arming stage hfollowing
    rw [after_concat, hrun] at hfollowing
    obtain rfl := Option.some.inj hfollowing
    exact List.mem_append_right _ (List.mem_append_left _ hopens.start_mem)
  · rw [headsReceived_concat_of_nil hreceived, ← hh.heads, headsSet_of_not_mem hunbegun,
      headsSet_append_of_not_mem hunbegun]
    exact hopens.headsSet_eq hpursues

/-- A step of a run that follows the chain sets the heads that it receives. -/
theorem Followed.concat_following {h : List Act} (hh : Followed run s h)
    (hsound : (s.after h).wiring.Sound) {arming : Nat} {stage : FullSync.Stage}
    (hx : (s.after h).runs[run]? = some (.following arming stage)) (r : Replies) (event : Event) :
    Followed run s (h ++ [.step r run event]) := by
  have hbegun : .startFullSync ∈ s.chainOf run h := hh.begun arming stage hx
  have hreceived : s.headsReceived run (h ++ [.step r run event]) =
      s.headsReceived run h ++ FullSync.received stage event := by
    unfold headsReceived
    rw [gather_concat, received_step, hx]
  obtain ⟨tail, x', hdoes, hpast, hpursues⟩ := follows_resume hsound hx r event
  have hrun : ((s.after h).act (.step r run event)).runs[run]? = some x' := by
    rw [show ((s.after h).act (.step r run event)).runs = _ from hdoes.runs]
    exact List.getElem?_set_self (List.getElem?_eq_some_iff.mp hx).1
  refine ⟨?_, ?_, ?_⟩
  all_goals rw [chainOf_concat_step, hdoes.newChain_eq]
  · intro hstill
    rw [after_concat] at hstill
    exact absurd hpast (hstill x' hrun)
  · exact fun _ _ _ => List.mem_append_left _ hbegun
  · rw [hreceived, headsSet_append_of_mem hbegun, hh.heads, List.filterMap_append,
      filterMap_setHeads, hpursues.headsSet_eq.2, List.append_nil]

/-- **What happens next keeps the heads that were set those that were received.** -/
theorem Followed.concat {h : List Act} (hh : Followed run s h)
    (hsound : (s.after h).wiring.Sound) (a : Act) : Followed run s (h ++ [a]) := by
  by_cases ha : ∃ r event, a = .step r run event
  · obtain ⟨r, event, rfl⟩ := ha
    -- a run that is over, or that there is not, makes no step
    have hidle : (∀ arming stage, (s.after h).runs[run]? ≠ some (.following arming stage)) →
        (s.after h).act (.step r run event) = s.after h →
          Followed run s (h ++ [.step r run event]) := by
      intro hfollows hsame
      refine hh.concat_other ?_ ?_ (fun x hx => by rwa [hsame]) (fun x hx => by
        rw [hsame] at hx
        exact .inl hx)
      · exact (if_pos rfl).trans (newChain_of_act_eq hsame)
      · rw [received_step]
        split
        next arming stage hrun => exact absurd hrun (hfollows arming stage)
        · rfl
    cases hx : (s.after h).runs[run]? with
    | none => exact hidle (by simp [hx]) (resume_of_none hx r event)
    | some x =>
      cases x with
      | fresh => exact hh.concat_early hx id r event
      | catchingUp _ _ _ => exact hh.concat_early hx id r event
      | following _ _ => exact hh.concat_following hsound hx r event
      | ended _ => exact hidle (by simp [hx]) (resume_of_ended hx r event)
      | panicked => exact hidle (by simp [hx]) (resume_of_panicked hx r event)
  · have hother : ∀ {r other event}, a = .step r other event → other ≠ run := by
      rintro r other event rfl rfl
      exact ha ⟨r, event, rfl⟩
    refine hh.concat_other ?_ ?_ (fun x hx => ?_) (fun x hx => ?_)
    · cases a with
      | step r other event => exact if_neg (hother rfl)
      | _ => rfl
    · cases a with
      | step r other event => exact if_neg (hother rfl)
      | _ => rfl
    · obtain ⟨x', hx', rfl | ⟨r, event, rfl, -⟩⟩ := exists_run_act hx a
      · exact hx'
      · exact absurd ⟨r, event, rfl⟩ ha
    · rcases run_act_cases _ a hx with ⟨y, hy, rfl | ⟨r, event, rfl, -⟩⟩ | hnew
      · exact .inl hy
      · exact absurd ⟨r, event, rfl⟩ ha
      · exact .inr hnew

/-- **In every history a run sets the heads that it receives.** -/
theorem Pristine.followed_after (hs : s.Pristine) (run : Nat) (h : List Act) :
    Followed run s h := by
  induction h using List.reverseRecOn with
  | nil => exact followed_nil hs.runs run
  | append_singleton h a ih => exact ih.concat (hs.sound_after h) a

/-- **In every history it is asked before a run asks for blocks.** -/
theorem Pristine.asked_chainOf (hs : s.Pristine) (run : Nat) (h : List Act) :
    Asked (s.chainOf run h) := by
  unfold chainOf
  induction h using List.reverseRecOn with
  | nil => exact asked_of_not_mem List.not_mem_nil
  | append_singleton h a ih =>
    rw [gather_concat]
    refine ih.append ?_
    unfold ownChain
    split
    · split
      · exact asked_newChain (hs.sound_after h) _
      · exact asked_of_not_mem List.not_mem_nil
    · exact asked_of_not_mem List.not_mem_nil

/-! ### Whole histories -/

/-- Full sync is set up unless the download is over before. -/
theorem isSome_fullSync_assemble {config : SyncConfig} {has : Collaborators} {isOver : Bool}
    {idle : Duration} {state : Option State} (hs : assemble config has isOver idle state = .ok s) :
    s.fullSync.isSome = !isOver := by
  obtain rfl := eq_assembled hs
  cases isOver <;> rfl

/-- Whether there is full sync does not change. -/
theorem Pristine.isSome_fullSync_after (hs : s.Pristine) (h : List Act) :
    (s.after h).fullSync.isSome = s.fullSync.isSome := by
  induction h using List.reverseRecOn with
  | nil => rfl
  | append_singleton h a ih =>
    rw [after_concat, isSome_fullSync_act (hs.sound_after h), ih]

/-- **A run that nobody disturbs says, when it ends well, that the download is over.** Unless those
who hear of that take it back at once, it is noted so. -/
theorem Pristine.told_of_endsWell (hs : s.Pristine) {isOver : Bool}
    (hfullSync : s.fullSync.isSome = !isOver) {past : List Act} {a : Act}
    (hlasting : Lasting (isOver :: ((s.after past).act a).answers))
    (hrun : s.Undisturbed run past) (hends : EndsWell run (s.after past) a) :
    .change (.terminal true) ∈ (s.after past).newCalls a ∧
      ((s.after past).state.Abiding →
        ((s.after past).act a).state.progress.terminal = some true) := by
  have hsound := hs.sound_after past
  have hover : (s.after past).fullSync = none → isOver = true := by
    intro hnone
    rw [← hs.isSome_fullSync_after past, hnone] at hfullSync
    cases isOver with
    | true => rfl
    | false => cases hfullSync
  obtain ⟨x, hx, hunended, r, event, rfl⟩ := hends.exists_step
  have hcurrent := hrun.isCurrent hs.runs hx hunended
  generalize s.after past = t at *
  rcases resume_cases hsound r run event with hsame | ⟨front, tail, x', hlt, hdoes, -, htail⟩
  · exact absurd (hsame ▸ hends.2) hends.1
  have hx' : x' = .ended (.ok ()) := by
    have hafter := hends.2
    rw [show (t.act (.step r run event)).runs = _ from hdoes.runs,
      List.getElem?_set_self hlt] at hafter
    exact Option.some.inj hafter
  subst hx'
  rw [answers_act, hdoes.newChain_eq, List.filterMap_append, ← List.append_assoc,
    ← List.cons_append] at hlasting
  have htold : .change (.terminal true) ∈ (t.newCalls (.step r run event)).filter
      Call.followsChain := by
    rw [show (t.newCalls _).filter Call.followsChain = _ from hdoes.newChain_eq]
    exact List.mem_append_right _ (htail.told hsound hcurrent hover hlasting)
  have hmem := (List.mem_filter.mp htold).1
  refine ⟨hmem, fun habiding => ?_⟩
  exact ((t.extends_resume r run event).terminal_of_told rfl habiding
    (t.calls_act (.step r run event)) (terminal_false_not_mem hsound r run event)).2 hmem

/-- **A run that ends by itself has reached the end of the download.** Assemble a synchronizer in
any mode, let anything happen to it in any order, and let the answers to whether the download should
end last, from the one on which it was assembled on. Then:

* whenever a run ends well that nobody disturbed, it says with that step that the download is over
  for good, and so it is noted then, as long as no listener takes that back from inside a notice;
* blocks are never asked for once an answer was that the download is over;
* every run, whatever becomes of it, asks whether the download should end each time before it asks
  for blocks, and the heads that are set from the beginning of full sync on are those that the run
  received, in order. -/
theorem ended_run_reached_end {config : SyncConfig} {has : Collaborators} {isOver : Bool}
    {idle : Duration} {state : Option State} {s : Synchronizer}
    (hs : assemble config has isOver idle state = .ok s) {h : List Act}
    (hlasting : Lasting (isOver :: (s.after h).answers)) :
    (∀ past a rest run, h = past ++ a :: rest → s.Undisturbed run past →
      EndsWell run (s.after past) a →
      .change (.terminal true) ∈ (s.after past).newCalls a ∧
        ((s.after past).state.Abiding →
          ((s.after past).act a).state.progress.terminal = some true)) ∧
    (∀ before after, (s.after h).book.calls = before ++ .importBatch :: after →
      isOver = false ∧ .consultTermination true ∉ before) ∧
    ∀ run, Asked (s.chainOf run h) ∧ headsSet (s.chainOf run h) = s.headsReceived run h := by
  have hpristine := (pristine_assemble hs).1
  refine ⟨?_, ?_, fun run =>
    ⟨hpristine.asked_chainOf run h, (hpristine.followed_after run h).heads⟩⟩
  · rintro past a rest run rfl hrun hends
    refine hpristine.told_of_endsWell (isSome_fullSync_assemble hs) ?_ hrun hends
    rw [after_append, after_cons] at hlasting
    exact lasting_of_after hlasting
  · intro before after hcalls
    have hchain : (s.after h).chain = before.filter Call.followsChain ++ .importBatch ::
        after.filter Call.followsChain := by
      unfold chain Logbook.only
      rw [hcalls, List.filter_append, List.filter_cons_of_pos rfl]
    obtain ⟨earlier, hearlier⟩ := hpristine.asked_after h _ _ hchain
    have hanswers : before.filterMap Call.answer? = earlier.filterMap Call.answer? ++ [false] := by
      rw [← filterMap_answer?_filter, hearlier, List.filterMap_append]
      rfl
    have hnever : true ∉ isOver :: earlier.filterMap Call.answer? := by
      unfold answers at hlasting
      rw [hcalls, List.filterMap_append, hanswers, List.append_assoc,
        ← List.cons_append] at hlasting
      exact hlasting.true_not_mem
    rw [List.mem_cons, not_or] at hnever
    refine ⟨(Bool.eq_false_or_eq_true isOver).resolve_left fun h => hnever.1 h.symm, fun hmem => ?_⟩
    have htrue : true ∈ before.filterMap Call.answer? := List.mem_filterMap.mpr ⟨_, hmem, rfl⟩
    rw [hanswers, List.mem_append] at htrue
    exact htrue.elim hnever.2 (by simp)

/-- A run that follows the chain: it receives a head, and then there are no new blocks. -/
def followed : List Act :=
  [.start (agreeable false), .step (agreeable true) 0 .begun,
    .step (agreeable true) 0 (.batchImported (.ok (some 7))),
    .step (agreeable true) 0 (.batchImported (.ok none))]

/-- The run goes on, and the download is over. -/
def lastStep : Act :=
  .step { agreeable true with overBeforeBatch := true, overAtEnd := true } 0 .woken

/-- A run that follows the chain to its end is told so, and set the head that it received. -/
theorem reached_end_of_followed :
    assemble { mode := .full } {} false FullSync.defaultIdle none = .ok unpivoted ∧
      Lasting (false :: (unpivoted.after (followed ++ [lastStep])).answers) ∧
      unpivoted.Undisturbed 0 followed ∧ EndsWell 0 (unpivoted.after followed) lastStep ∧
      (unpivoted.after followed).state.Abiding ∧
      ((unpivoted.after followed).act lastStep).state.progress.terminal = some true ∧
      headsSet (unpivoted.chainOf 0 (followed ++ [lastStep])) = [7] := by
  have hassemble : assemble { mode := .full } {} false FullSync.defaultIdle none =
      .ok unpivoted := rfl
  have hlasting : Lasting (false :: (unpivoted.after (followed ++ [lastStep])).answers) := by
    have hanswers : (unpivoted.after (followed ++ [lastStep])).answers =
        [false, false, true, true] := rfl
    rw [hanswers]
    unfold Lasting
    decide
  have hundisturbed : unpivoted.Undisturbed 0 followed := by
    rintro past a rest heq -
    have hmem : a ∈ followed := heq ▸ List.mem_append_right _ List.mem_cons_self
    simp only [followed, List.mem_cons, List.not_mem_nil, or_false] at hmem
    rcases hmem with rfl | rfl | rfl | rfl <;> exact id
  have hends : EndsWell 0 (unpivoted.after followed) lastStep := by
    refine ⟨?_, rfl⟩
    rw [show (unpivoted.after followed).runs[0]? = some (.following 1 .pausing) from rfl]
    exact nofun
  have habiding : (unpivoted.after followed).state.Abiding :=
    State.Quiet.abiding (List.forall_mem_nil _)
  obtain ⟨hend, -, hrun⟩ := ended_run_reached_end hassemble hlasting
  exact ⟨hassemble, hlasting, hundisturbed, hends, habiding,
    (hend followed lastStep [] 0 rfl hundisturbed hends).2 habiding, (hrun 0).2⟩

end Synchronizer

end ExecutionNode.Sync
