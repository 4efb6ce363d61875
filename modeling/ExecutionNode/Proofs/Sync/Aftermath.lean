import ExecutionNode.Proofs.Sync.Progress
import ExecutionNode.Proofs.Sync.Runs

/-!
# What is left of a run that was ended

A run that was stopped, or from which another took over, notices that only at its next step, and so
it makes steps when its time is over.  Four of the things a run does outlast it: it ends the
initial phase, it says that the download is over for good, it makes a world state the current one,
and it has missing nodes fetched on demand.  `Synchronizer.leftovers` is what an ended run still
does of these in a step.

* `lasting_resume` is the step: a run that is not current does its leftovers and nothing else
  that lasts.
* `leftovers_of_ended` says so of every later step of a run that was ended, and what follows from
  it: a run that was ended while it caught up leaves nothing, and no run makes a world state the
  current one.
* `ended_run_leaves_marks`: both kinds of leftovers occur.  A run that had not begun still ends the
  initial phase, and one that followed the chain still says that the download is over for good.
-/

namespace ExecutionNode.Sync

/-- The calls of a run that outlast it. -/
def Call.isLasting : Call → Bool
  | change .initialDone => true
  | change .restart => true
  | change (.terminal _) => true
  | anchor _ => true
  | enableFallback => true
  | _ => false

/-- The calls that tell whether the download is over for good. -/
def Call.tellsTerminal : Call → Bool
  | change (.terminal _) => true
  | _ => false

/-- Routine work does not last. -/
theorem Call.isLasting_of_isRoutine {c : Call} (h : c.isRoutine = true) : c.isLasting = false := by
  cases c with
  | change c =>
    cases c with
    | best _ => rfl
    | localHead _ => rfl
    | initialDone => cases h
    | restart => cases h
    | terminal _ => cases h
  | anchor _ => cases h
  | enableFallback => cases h
  | _ => rfl

/-- The active run is ended. -/
def Act.Ends : Act → Prop
  | .stop _ => True
  | .resync .. => True
  | _ => False

namespace Synchronizer

variable {s t : Synchronizer} {run : Nat}

/-- The lasting calls that were made, in their order. -/
def lasting (s : Synchronizer) : List Call := s.book.only Call.isLasting

/-- The lasting calls that a run which is not current still makes in a step. -/
def leftovers (s : Synchronizer) (r : Replies) (run : Nat) (event : Event) : List Call :=
  match s.runs[run]? with
  | some .fresh =>
    match event with
    | .begun => .change .initialDone ::
        if r.supportsFallback && !s.fallbackEnabled then [.enableFallback] else []
    | _ => []
  | some (.following arming stage) =>
    match s.fullSync with
    | some f =>
      match (f.resume r s.book arming stage event).turn with
      | .ended (.ok ()) => if r.overAtEnd then [.change (.terminal true)] else []
      | _ => []
    | none => []
  | _ => []

/-! ### What a step adds to the lasting calls -/

/-- A call of another kind does not last. -/
theorem lasting_call_of_not (s : Synchronizer) {c : Call} (h : c.isLasting = false) :
    (s.call c).lasting = s.lasting :=
  s.book.only_call_of_not h

/-- A change that lasts is a lasting call. -/
theorem lasting_change_of (s : Synchronizer) {c : Progress.Change}
    (h : (Call.change c).isLasting = true) : (s.change c).lasting = s.lasting ++ [.change c] :=
  (s.book.only_change (fun _ => rfl) c).trans (s.book.only_call_of h)

/-- The end of a run does not last. -/
theorem lasting_finish (s : Synchronizer) (run : Nat) (result : Except RunError Unit) :
    (s.finish run result).lasting = s.lasting := by
  unfold finish windDown
  dsimp only
  split
  · exact (only_callIf_of_not _ _ rfl).trans (only_callIf_of_not _ _ rfl)
  · rfl

/-- A run that has nothing left to download may say that this is for good. -/
theorem lasting_conclude (s : Synchronizer) (r : Replies) (run : Nat) :
    (s.conclude r run).lasting =
      s.lasting ++ if r.overAtEnd then [.change (.terminal true)] else [] := by
  unfold conclude
  dsimp only
  rw [lasting_finish]
  split
  · rw [lasting_change_of _ rfl, lasting_call_of_not _ rfl]
  · rw [lasting_call_of_not _ rfl, List.append_nil]

/-- To have missing nodes fetched on demand lasts. -/
theorem lasting_enableFallback (s : Synchronizer) (r : Replies) :
    (s.enableFallback r).lasting =
      s.lasting ++ if r.supportsFallback && !s.fallbackEnabled then [.enableFallback] else [] := by
  unfold enableFallback
  split
  · exact s.book.only_call_of rfl
  · exact (List.append_nil _).symm

/-- Full sync does nothing that lasts, and a run says at its end what it has to say. -/
theorem lasting_afterFullSync (s : Synchronizer) (r : Replies) (run arming : Nat)
    {o : FullSync.Outcome} (h : s.book.Grows o.book) :
    (s.afterFullSync r run arming o).lasting = s.lasting ++
      match o.turn with
      | .ended (.ok ()) => if r.overAtEnd then [.change (.terminal true)] else []
      | _ => [] := by
  have hbook : { s with fullSync := some o.fullSync, book := o.book }.lasting = s.lasting :=
    h.only fun _ => Call.isLasting_of_isRoutine
  unfold afterFullSync
  dsimp only
  cases o.turn with
  | waiting stage => exact hbook.trans (List.append_nil _).symm
  | ended result =>
    cases result with
    | ok _ =>
      dsimp only
      rw [lasting_conclude, hbook]
    | error e => exact (lasting_finish _ _ _).trans (hbook.trans (List.append_nil _).symm)
  | panicked => exact hbook.trans (List.append_nil _).symm

/-- A run that is not current does not go on with full sync. -/
theorem lasting_follow (hcurrent : s.isCurrent run = false) (r : Replies) :
    (s.follow r run).lasting = s.lasting := by
  unfold follow
  rw [if_neg (by rw [hcurrent]; exact Bool.false_ne_true)]
  exact lasting_finish _ _ _

/-- A catch-up of a run that is not current does nothing that lasts, whatever comes of it. -/
theorem lasting_afterCatchUp (hcurrent : s.isCurrent run = false) (r : Replies)
    (downloader arming : Nat) {o : CatchUp.Outcome} (h : s.book.Grows o.book) :
    (s.afterCatchUp r run downloader arming o).lasting = s.lasting := by
  have hbook : { s with
      catchUps := s.catchUps.set downloader o.catchUp, book := o.book }.lasting = s.lasting :=
    h.only fun _ => Call.isLasting_of_isRoutine
  unfold afterCatchUp
  dsimp only
  cases o.turn with
  | waiting stage => exact hbook
  | panicked => exact hbook
  | ended result =>
    dsimp only
    split
    next hagain =>
      have hagain : s.isCurrent run = true := hagain
      rw [hcurrent] at hagain
      cases hagain
    · exact (lasting_finish _ _ _).trans hbook

/-- **A run that is not current does its leftovers** and nothing else that lasts. -/
theorem lasting_resume (hcurrent : s.isCurrent run = false) (r : Replies) (event : Event) :
    (s.resume r run event).lasting = s.lasting ++ s.leftovers r run event := by
  unfold resume leftovers
  cases hrun : s.runs[run]? with
  | none => exact (List.append_nil _).symm
  | some x =>
    cases x with
    | fresh =>
      cases event with
      | begun =>
        dsimp only
        have hcurrent' : ((s.change .initialDone).enableFallback r).isCurrent run = false := by
          unfold enableFallback
          split <;> exact hcurrent
        rw [lasting_follow hcurrent', lasting_enableFallback, lasting_change_of _ rfl,
          List.append_assoc]
        rfl
      | _ => exact (List.append_nil _).symm
    | catchingUp downloader arming stage =>
      dsimp only
      rw [List.append_nil]
      split
      next c _ => exact lasting_afterCatchUp hcurrent r downloader arming (c.grows_resume r _ _ _ _)
      · rfl
    | following arming stage =>
      dsimp only
      cases s.fullSync with
      | none => exact (List.append_nil _).symm
      | some f => exact lasting_afterFullSync s r run arming (f.grows_resume r _ _ _ _)
    | ended result => exact (List.append_nil _).symm
    | panicked => exact (List.append_nil _).symm

/-! ### Runs that were ended -/

/-- No world state is left to be made the current one. -/
theorem anchor_not_mem_leftovers (s : Synchronizer) (r : Replies) (run : Nat) (event : Event)
    (pivot : SealedHeader) : .anchor pivot ∉ s.leftovers r run event := by
  unfold leftovers
  split
  · split
    · split <;> simp
    · simp
  · split
    · split
      · split <;> simp
      · simp
    · simp
  · simp

/-- A run that was overtaken while it caught up leaves nothing. -/
theorem IsOvertaken.leftovers_eq_nil (h : s.IsOvertaken run) (r : Replies) (event : Event) :
    s.leftovers r run event = [] := by
  obtain ⟨-, x, hx, hover⟩ := h
  unfold leftovers
  rw [hx]
  cases x with
  | fresh => exact hover.elim
  | following _ _ => exact hover.elim
  | _ => rfl

/-- A run is not current any more once it was ended. -/
theorem isCurrent_act_of_ends (hcurrent : s.isCurrent run = true) {a : Act} (ha : a.Ends) :
    (s.act a).isCurrent run = false := by
  have hlast := eq_length_of_isCurrent hcurrent
  cases a with
  | stop r =>
    rw [isCurrent_eq_false_iff, show (s.act (.stop r)).running = false from s.running_stop r]
    exact fun h => nomatch h
  | resync r r' =>
    rw [isCurrent_eq_false_iff,
      show (s.act (.resync r r')).runs.length = _ from s.length_runs_resync r r']
    omega
  | _ => exact ha.elim

/-- To end a run makes nothing of it until it notices. -/
theorem getElem?_runs_act_of_ends {a : Act} (ha : a.Ends) (hlt : run < s.runs.length) :
    (s.act a).runs[run]? = s.runs[run]? := by
  cases a with
  | stop r => rw [show (s.act (.stop r)).runs = s.runs from s.runs_stop r]
  | resync r r' =>
    rw [show (s.act (.resync r r')).runs = _ from s.runs_resync r r', List.getElem?_append_left hlt]
  | _ => exact ha.elim

/-- A run has begun. -/
def HasBegun (s : Synchronizer) (run : Nat) : Prop :=
  ∃ x : Run, s.runs[run]? = some x ∧ x ≠ .fresh

/-- A run that has begun stays so. -/
theorem HasBegun.act (h : s.HasBegun run) (a : Act) : (s.act a).HasBegun run := by
  obtain ⟨x, hx, hbegun⟩ := h
  obtain ⟨x', hx', hcases⟩ := exists_run_act hx a
  refine ⟨x', hx', ?_⟩
  rcases hcases with rfl | ⟨r, event, -, hbecomes⟩
  · exact hbegun
  · rintro rfl
    exact hbegun hbecomes.eq_fresh

/-- A run that has begun stays so in every history. -/
theorem HasBegun.after (h : s.HasBegun run) (rest : List Act) : (s.after rest).HasBegun run :=
  after_induction (fun t => t.HasBegun run) (fun _ => True) h (fun _ a ht _ => ht.act a)
    fun _ _ => trivial

/-- A run that has begun leaves at most to say that the download is over for good. -/
theorem HasBegun.leftovers_cases (h : s.HasBegun run) (r : Replies) (event : Event) :
    s.leftovers r run event = [] ∨ s.leftovers r run event = [.change (.terminal true)] := by
  obtain ⟨x, hx, hbegun⟩ := h
  unfold leftovers
  rw [hx]
  cases x with
  | fresh => exact absurd rfl hbegun
  | following arming stage =>
    dsimp only
    split
    · split
      · cases r.overAtEnd with
        | true => exact .inr rfl
        | false => exact .inl rfl
      · exact .inl rfl
    · exact .inl rfl
  | _ => exact .inl rfl

/-- Of what is not left over nothing is done. -/
theorem only_resume_of_not_mem (hcurrent : s.isCurrent run = false) {r : Replies} {event : Event}
    {p : Call → Bool} (hp : ∀ c, p c = true → c.isLasting = true)
    (hnone : ∀ c ∈ s.leftovers r run event, p c = false) :
    (s.resume r run event).book.only p = s.book.only p := by
  have hleft : (s.leftovers r run event).filter p = [] :=
    List.filter_eq_nil_iff.mpr fun c hc => Bool.eq_false_iff.mp (hnone c hc)
  have hlasting : (s.resume r run event).book.only Call.isLasting =
      s.book.only Call.isLasting ++ s.leftovers r run event := lasting_resume hcurrent r event
  rw [Logbook.only_of_only _ hp, hlasting, List.filter_append, hleft, List.append_nil,
    ← Logbook.only_of_only _ hp]

/-- **The initial phase stays as it is** unless its end is left over. -/
theorem initialDone_resume_of_not_mem (hcurrent : s.isCurrent run = false)
    (hquiet : s.state.Quiet) {r : Replies} {event : Event}
    (hnone : .change .initialDone ∉ s.leftovers r run event) :
    (s.resume r run event).state.progress.initialDone = s.state.progress.initialDone := by
  refine (s.extends_resume r run event).initialDone_eq hquiet rfl
    (q := fun c => c = .change .initialDone) (by simp) (only_resume_of_not_mem hcurrent ?_ ?_)
  · intro c hc
    rw [of_decide_eq_true hc]
    rfl
  · intro c hc
    apply decide_eq_false
    rintro rfl
    exact hnone hc

/-- **Whether the download is over for good stays as it is** unless that is left to be told. -/
theorem terminal_resume_of_not_mem (hcurrent : s.isCurrent run = false)
    (hquiet : s.state.Quiet) {r : Replies} {event : Event}
    (hnone : ∀ reached, .change (.terminal reached) ∉ s.leftovers r run event) :
    (s.resume r run event).state.progress.terminal = s.state.progress.terminal := by
  refine (s.extends_resume r run event).terminal_eq hquiet rfl (q := Call.tellsTerminal)
    (fun _ => rfl) (only_resume_of_not_mem hcurrent ?_ ?_)
  · intro c hc
    unfold Call.tellsTerminal at hc
    split at hc
    · rfl
    · cases hc
  · intro c hc
    unfold Call.tellsTerminal
    split
    · exact absurd hc (hnone _)
    · rfl

/-- **What is left of a run that was ended.** Let the active run of any synchronizer be ended, by a
stop or by starting over, and then let anything happen, in any order and whatever the collaborators
answer. Then in every later step that run makes:

* of all calls that outlast a run it makes exactly its leftovers, and never makes a world state the
  current one;
* it leaves nothing if it caught up when it was ended, and at most says that the download is over
  for good if it had begun;
* unless that is among the leftovers, it does not end the initial phase, nor does it touch whether
  the download is over for good, as long as those who hear of the sync state do not act on it. -/
theorem leftovers_of_ended (hcurrent : s.isCurrent run = true) {a : Act} (ha : a.Ends)
    (rest : List Act) (r : Replies) (event : Event) :
    let t := (s.act a).after rest
    (t.resume r run event).lasting = t.lasting ++ t.leftovers r run event ∧
      (∀ pivot, .anchor pivot ∉ t.leftovers r run event) ∧
      (∀ downloader arming stage, s.runs[run]? = some (.catchingUp downloader arming stage) →
        t.leftovers r run event = []) ∧
      (s.runs[run]? ≠ some .fresh → t.leftovers r run event = [] ∨
        t.leftovers r run event = [.change (.terminal true)]) ∧
      (t.state.Quiet →
        (.change .initialDone ∉ t.leftovers r run event →
          (t.resume r run event).state.progress.initialDone = t.state.progress.initialDone) ∧
        ((∀ reached, .change (.terminal reached) ∉ t.leftovers r run event) →
          (t.resume r run event).state.progress.terminal = t.state.progress.terminal)) := by
  intro t
  have hlt : run < s.runs.length := by
    have hlast := eq_length_of_isCurrent hcurrent
    omega
  have hrun : (s.act a).runs[run]? = s.runs[run]? := getElem?_runs_act_of_ends ha hlt
  have hended : (s.act a).isCurrent run = false := isCurrent_act_of_ends hcurrent ha
  have hover : t.isCurrent run = false :=
    isCurrent_after_eq_false hended ((List.getElem?_eq_some_iff.mp
      (hrun.trans (List.getElem?_eq_getElem hlt))).1) rest
  refine ⟨lasting_resume hover r event, t.anchor_not_mem_leftovers r run event, ?_, ?_, ?_⟩
  · intro downloader arming stage hcatchesUp
    have hovertaken : (s.act a).IsOvertaken run := ⟨hended, _, hrun.trans hcatchesUp, trivial⟩
    exact (hovertaken.after rest).leftovers_eq_nil r event
  · intro hfresh
    have hbegun : (s.act a).HasBegun run := by
      refine ⟨s.runs[run], hrun.trans (List.getElem?_eq_getElem hlt), ?_⟩
      rintro heq
      exact hfresh (heq ▸ List.getElem?_eq_getElem hlt)
    exact (hbegun.after rest).leftovers_cases r event
  · intro hquiet
    exact ⟨initialDone_resume_of_not_mem hover hquiet, terminal_resume_of_not_mem hover hquiet⟩

/-- A run that is stopped while it catches up leaves nothing. -/
theorem nothing_left_of_catch_up :
    (usual.after [.start (agreeable false)]).isCurrent 0 = true ∧
      (Act.stop (agreeable true)).Ends ∧
      ∀ (rest : List Act) (r : Replies) (event : Event),
        let t := ((usual.after [.start (agreeable false)]).act (.stop (agreeable true))).after rest
        (t.resume r 0 event).lasting = t.lasting := by
  have hcurrent : (usual.after [.start (agreeable false)]).isCurrent 0 = true := rfl
  have hends : (Act.stop (agreeable true)).Ends := trivial
  refine ⟨hcurrent, hends, fun rest r event => ?_⟩
  obtain ⟨hlasting, -, hcatchesUp, -⟩ := leftovers_of_ended hcurrent hends rest r event
  rw [hcatchesUp 0 1 .fresh rfl, List.append_nil] at hlasting
  exact hlasting

/-- A synchronizer that has nothing to catch up with. -/
def unpivoted : Synchronizer := { usual with catchUps := [] }

/-- A run that is stopped before its first turn ends the initial phase and has missing nodes fetched
on demand. One that is stopped while it follows the chain says that the download is over for
good. -/
theorem ended_run_leaves_marks :
    assemble { mode := .full } {} false FullSync.defaultIdle none = .ok unpivoted ∧
      (let s := unpivoted.after [.start (agreeable false)]
       let t := s.act (.stop (agreeable true))
       let u := t.resume (agreeable false) 0 .begun
       s.isCurrent 0 = true ∧ t.state.progress.initialDone = false ∧
        u.state.progress.initialDone = true ∧ .enableFallback ∉ t.book.calls ∧
        .enableFallback ∈ u.book.calls) ∧
      (let s := unpivoted.after [.start (agreeable false), .step (agreeable true) 0 .begun]
       let t := s.act (.stop (agreeable true))
       let u := t.resume { agreeable false with overAtEnd := true } 0 .stopSignalled
       s.isCurrent 0 = true ∧ t.state.progress.terminal = none ∧
        u.state.progress.terminal = some true) := by
  refine ⟨rfl, ⟨rfl, rfl, rfl, by decide, by decide⟩, rfl, rfl, rfl⟩

end Synchronizer

end ExecutionNode.Sync
