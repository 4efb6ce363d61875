import ExecutionNode.Proofs.Sync.Evidence

/-!
# The hand-over from catching up

When a catch-up is complete the node is handed over: the kept pivot block is forgotten, the world
state becomes the state of the node, the selector is closed, the initial phase ends, missing nodes
are fetched on demand if that is possible, and full sync begins.  A run that was overtaken may still
get that far in its own time.

`Synchronizer.ledger` keeps the calls of the hand-over apart from all others, and
`Synchronizer.handedOver` is what one hand-over adds to them.  `ledger_resume` says of every step
that it adds all of this or nothing.

* `handOver_safe` puts together when a step hands over, what becomes of overtaken runs, and that
  missing nodes are fetched on demand at most once.
-/

namespace ExecutionNode.Sync

/-- The calls by which the node is handed over. -/
def Call.handsOver : Call → Bool
  | deletePivot => true
  | anchor _ => true
  | closeSelector => true
  | change .initialDone => true
  | enableFallback => true
  | startFullSync => true
  | _ => false

/-- Routine work does not hand over. -/
theorem Call.handsOver_of_isRoutine {c : Call} (h : c.isRoutine = true) : c.handsOver = false := by
  cases c with
  | change c =>
    cases c with
    | initialDone => cases h
    | _ => rfl
  | deletePivot => cases h
  | anchor _ => cases h
  | closeSelector => cases h
  | enableFallback => cases h
  | startFullSync => cases h
  | _ => rfl

/-- The fault because of which a hand-over fails. -/
def Replies.handOverFault? (r : Replies) : Option Fault :=
  match r.delete with
  | .error f => some f
  | .ok () =>
    match r.anchor with
    | .error f => some f
    | .ok () => none

namespace Synchronizer

variable {s t : Synchronizer} {run : Nat}

/-- The calls of hand-overs, in their order. -/
def handOvers (s : Synchronizer) : List Call := s.book.only Call.handsOver

/-- The calls of hand-overs, and whether missing nodes are fetched on demand. -/
def ledger (s : Synchronizer) : List Call × Bool := (s.handOvers, s.fallbackEnabled)

/-- The calls of one hand-over with a pivot block, in their order. It stops where something fails;
full sync begins unless there is nothing to follow or the download is over. -/
def handedOver (s : Synchronizer) (r : Replies) (pivot : SealedHeader) : List Call :=
  match r.delete with
  | .error _ => [.deletePivot]
  | .ok () =>
    match r.anchor with
    | .error _ => [.deletePivot, .anchor pivot]
    | .ok () =>
      [.deletePivot, .anchor pivot, .closeSelector, .change .initialDone]
        ++ (if r.supportsFallback && !s.fallbackEnabled then [.enableFallback] else [])
        ++ (if r.overAfterCatchUp || s.fullSync.isNone then [] else [.startFullSync])

/-! ### What a step adds to the ledger -/

/-- A call of another kind adds nothing. -/
theorem ledger_call_of_not (s : Synchronizer) {c : Call} (h : c.handsOver = false) :
    (s.call c).ledger = s.ledger := by
  unfold ledger handOvers call
  rw [Logbook.only_call_of_not _ h]

/-- A call of a hand-over is added. -/
theorem handOvers_call_of (s : Synchronizer) {c : Call} (h : c.handsOver = true) :
    (s.call c).handOvers = s.handOvers ++ [c] :=
  s.book.only_call_of h

/-- A change of a hand-over is added. -/
theorem handOvers_change_of (s : Synchronizer) {c : Progress.Change}
    (h : (Call.change c).handsOver = true) :
    (s.change c).handOvers = s.handOvers ++ [.change c] :=
  (s.book.only_change (fun _ => rfl) c).trans (s.book.only_call_of h)

/-- A call of a hand-over is all that is added. -/
theorem ledger_call_of (s : Synchronizer) {c : Call} (h : c.handsOver = true) :
    (s.call c).ledger = (s.handOvers ++ [c], s.fallbackEnabled) := by
  rw [ledger, handOvers_call_of _ h]
  rfl

/-- A call of another kind adds nothing, made or left out. -/
theorem ledger_callIf_of_not (s : Synchronizer) (condition : Bool) {c : Call}
    (h : c.handsOver = false) : (s.callIf condition c).ledger = s.ledger := by
  unfold ledger handOvers
  rw [only_callIf_of_not s condition h, callIf_eq]

/-- A change of another kind adds nothing. -/
theorem ledger_change_of_not (s : Synchronizer) {c : Progress.Change}
    (h : (Call.change c).handsOver = false) : (s.change c).ledger = s.ledger := by
  unfold ledger handOvers change
  rw [Logbook.only_change _ (fun _ => rfl), Logbook.only_call_of_not _ h]

/-- A download adds nothing. -/
theorem ledger_of_grows {b : Logbook} (h : s.book.Grows b) (hbook : t.book = b)
    (hfallback : t.fallbackEnabled = s.fallbackEnabled) : t.ledger = s.ledger := by
  unfold ledger handOvers
  rw [hbook, hfallback, h.only fun _ hc => Call.handsOver_of_isRoutine hc]

/-- The end of a run adds nothing. -/
theorem ledger_finish (s : Synchronizer) (run : Nat) (result : Except RunError Unit) :
    (s.finish run result).ledger = s.ledger := by
  unfold finish windDown
  dsimp only
  split
  · exact (ledger_callIf_of_not _ _ rfl).trans (ledger_callIf_of_not _ _ rfl)
  · rfl

/-- The end of a run that has nothing left to download adds nothing. -/
theorem ledger_conclude (s : Synchronizer) (r : Replies) (run : Nat) :
    (s.conclude r run).ledger = s.ledger := by
  unfold conclude
  dsimp only
  rw [ledger_finish]
  split
  · rw [ledger_change_of_not _ rfl, ledger_call_of_not _ rfl]
  · rw [ledger_call_of_not _ rfl]

/-- A step of full sync adds nothing. -/
theorem ledger_afterFullSync (s : Synchronizer) (r : Replies) (run arming : Nat)
    {o : FullSync.Outcome} (h : s.book.Grows o.book) :
    (s.afterFullSync r run arming o).ledger = s.ledger := by
  have hnoted : { s with fullSync := some o.fullSync, book := o.book }.ledger = s.ledger :=
    ledger_of_grows h rfl rfl
  unfold afterFullSync
  dsimp only
  cases o.turn with
  | waiting stage => exact hnoted
  | ended result =>
    cases result with
    | ok _ => exact (ledger_conclude _ r run).trans hnoted
    | error e => exact (ledger_finish _ run _).trans hnoted
  | panicked => exact hnoted

/-- The current run begins full sync, if there is any. -/
theorem ledger_follow (hcurrent : s.isCurrent run = true) (r : Replies) :
    (s.follow r run).ledger =
      (s.handOvers ++ if s.fullSync.isNone then [] else [.startFullSync], s.fallbackEnabled) := by
  unfold follow
  rw [if_pos hcurrent]
  dsimp only
  have hledger : (s.callIf s.prunes .startPruner).ledger = s.ledger :=
    ledger_callIf_of_not _ _ rfl
  have hfullSync : (s.callIf s.prunes .startPruner).fullSync = s.fullSync := by
    rw [callIf_eq]
  generalize s.callIf s.prunes .startPruner = t at hledger hfullSync ⊢
  obtain ⟨hhandOvers, hfallback⟩ := Prod.mk.inj hledger
  rw [← hfullSync, ← hhandOvers, ← hfallback]
  cases t.fullSync with
  | none =>
    dsimp only
    rw [ledger_conclude, ledger, Option.isNone_none, if_pos rfl, List.append_nil]
  | some f =>
    dsimp only
    rw [ledger_afterFullSync _ r run _ (f.start.grows_resume r _ _ _ _), ledger_call_of _ rfl]
    rfl

/-- Missing nodes are fetched on demand from the first time that is possible. -/
theorem ledger_enableFallback (s : Synchronizer) (r : Replies) :
    (s.enableFallback r).ledger =
      (s.handOvers ++ if r.supportsFallback && !s.fallbackEnabled then [.enableFallback] else [],
        s.fallbackEnabled || r.supportsFallback) := by
  unfold enableFallback
  split
  · next h =>
    rw [Bool.and_eq_true] at h
    rw [ledger_call_of _ rfl, h.1, Bool.or_true]
    rfl
  · next h =>
    rw [ledger, List.append_nil]
    cases hsupports : r.supportsFallback with
    | false => rw [Bool.or_false]
    | true =>
      rw [hsupports, Bool.true_and, Bool.not_eq_true, Bool.not_eq_false'] at h
      rw [h, Bool.true_or]

/-- The first part of a hand-over does not touch the wiring. -/
theorem wiring_arrived (s : Synchronizer) (r : Replies) (pivot : SealedHeader) :
    (s.arrived r pivot).wiring = s.wiring := by
  unfold arrived
  rw [wiring_call, wiring_enableFallback]
  rfl

/-- The first part of a hand-over does not touch full sync. -/
theorem fullSync_arrived (s : Synchronizer) (r : Replies) (pivot : SealedHeader) :
    (s.arrived r pivot).fullSync = s.fullSync := by
  unfold arrived enableFallback
  split <;> rfl

/-- What the first part of a hand-over adds. -/
theorem ledger_arrived (s : Synchronizer) (r : Replies) (pivot : SealedHeader) :
    (s.arrived r pivot).ledger =
      (s.handOvers ++ [.deletePivot, .anchor pivot, .closeSelector, .change .initialDone]
        ++ (if r.supportsFallback && !s.fallbackEnabled then [.enableFallback] else []),
        s.fallbackEnabled || r.supportsFallback) := by
  have hfirst : ((((s.call .deletePivot).call (.anchor pivot)).call .closeSelector).change
      .initialDone).handOvers = s.handOvers ++
        [.deletePivot, .anchor pivot, .closeSelector, .change .initialDone] := by
    rw [handOvers_change_of _ rfl, handOvers_call_of _ rfl, handOvers_call_of _ rfl,
      handOvers_call_of _ rfl, List.append_assoc, List.append_assoc, List.append_assoc]
    rfl
  unfold arrived
  rw [ledger_call_of_not _ rfl, ledger_enableFallback, hfirst]
  rfl

/-- **What a hand-over of the current run adds to the ledger.** -/
theorem ledger_handOver (hcurrent : s.isCurrent run = true) (r : Replies) (pivot : SealedHeader) :
    (s.handOver r run pivot).ledger =
      (s.handOvers ++ s.handedOver r pivot,
        s.fallbackEnabled || (r.handOverFault?.isNone && r.supportsFallback)) := by
  unfold handedOver Replies.handOverFault?
  cases hdelete : r.delete with
  | error f =>
    rw [s.handOver_of_delete_error run pivot hdelete, ledger_finish, ledger_call_of _ rfl]
    simp
  | ok _ =>
    cases hanchor : r.anchor with
    | error f =>
      rw [s.handOver_of_anchor_error run pivot hdelete hanchor, ledger_finish, ledger_call_of _ rfl,
        handOvers_call_of _ rfl]
      simp [call]
    | ok _ =>
      have harrived := Prod.mk.inj (s.ledger_arrived r pivot)
      have hcurrent' : (s.arrived r pivot).isCurrent run = true := by
        rw [isCurrent_iff, wiring_arrived, ← isCurrent_iff]
        exact hcurrent
      rw [s.handOver_of_ok run pivot hdelete hanchor]
      split
      · next hover =>
        rw [ledger_finish, ledger_change_of_not _ rfl, ledger_arrived]
        simp [hover]
      · next hover =>
        rw [ledger_follow hcurrent', harrived.1, harrived.2, fullSync_arrived]
        simp [hover]

/-- A hand-over that fails ends its run with that fault. -/
theorem runs_handOver_of_fault {r : Replies} {f : Fault} (hfault : r.handOverFault? = some f)
    (s : Synchronizer) (run : Nat) (pivot : SealedHeader) :
    (s.handOver r run pivot).runs = s.runs.set run (.ended (.error (.fault f))) := by
  unfold Replies.handOverFault? at hfault
  cases hdelete : r.delete with
  | error f' =>
    rw [hdelete] at hfault
    obtain rfl := Option.some.inj hfault
    rw [s.handOver_of_delete_error run pivot hdelete, runs_finish]
    rfl
  | ok _ =>
    rw [hdelete] at hfault
    dsimp only at hfault
    cases hanchor : r.anchor with
    | error f' =>
      rw [hanchor] at hfault
      obtain rfl := Option.some.inj hfault
      rw [s.handOver_of_anchor_error run pivot hdelete hanchor, runs_finish]
      rfl
    | ok _ => rw [hanchor] at hfault; cases hfault

/-- In a step the catch-up of the current run ends well, with a pivot block. -/
def Completes (s : Synchronizer) (r : Replies) (run : Nat) (event : Event) (pivot : SealedHeader) :
    Prop :=
  s.isCurrent run = true ∧ ∃ downloader arming stage c,
    s.runs[run]? = some (.catchingUp downloader arming stage) ∧ s.catchUps[downloader]? = some c ∧
      (c.resume r s.book arming stage event).turn = .ended (.ok pivot)

/-- **A step hands over as a whole or not at all**, unless its run had nothing to catch up with. It
does so only if its run is current and its catch-up ends well, and where that fails the run ends
with the fault. -/
theorem ledger_resume (hfresh : s.runs[run]? ≠ some .fresh) (r : Replies) (event : Event) :
    (s.resume r run event).ledger = s.ledger ∨
      ∃ pivot, Completes s r run event pivot ∧
        (s.resume r run event).ledger = (s.handOvers ++ s.handedOver r pivot,
          s.fallbackEnabled || (r.handOverFault?.isNone && r.supportsFallback)) ∧
        ∀ f, r.handOverFault? = some f →
          (s.resume r run event).runs[run]? = some (.ended (.error (.fault f))) := by
  unfold resume
  cases hrun : s.runs[run]? with
  | none => exact .inl rfl
  | some y =>
    cases y with
    | fresh => exact absurd hrun hfresh
    | catchingUp downloader arming stage =>
      dsimp only
      cases hc : s.catchUps[downloader]? with
      | none => exact .inl rfl
      | some c =>
        have hgrows := c.grows_resume r s.book arming stage event
        have hcompletes : ∀ {pivot}, (c.resume r s.book arming stage event).turn =
            .ended (.ok pivot) → s.isCurrent run = true → Completes s r run event pivot :=
          fun hturn hcurrent => ⟨hcurrent, downloader, arming, stage, c, hrun, hc, hturn⟩
        dsimp only
        generalize c.resume r s.book arming stage event = o at hgrows hcompletes ⊢
        have hledger : { s with
            catchUps := s.catchUps.set downloader o.catchUp, book := o.book }.ledger = s.ledger :=
          ledger_of_grows hgrows rfl rfl
        unfold afterCatchUp
        dsimp only
        cases hturn : o.turn with
        | waiting stage' => exact .inl hledger
        | panicked => exact .inl hledger
        | ended result =>
          dsimp only
          split
          · next hcurrent =>
            cases result with
            | error e => exact .inl ((ledger_finish _ run _).trans hledger)
            | ok pivot =>
              refine .inr ⟨pivot, hcompletes hturn hcurrent, ?_, fun f hf => ?_⟩
              · refine (ledger_handOver hcurrent r pivot).trans ?_
                rw [(Prod.mk.inj hledger).1]
                rfl
              · rw [runs_handOver_of_fault hf]
                exact List.getElem?_set_self (List.getElem?_eq_some_iff.mp hrun).1
          · exact .inl ((ledger_finish _ run _).trans hledger)
    | following arming stage =>
      dsimp only
      cases hf : s.fullSync with
      | none => exact .inl rfl
      | some f => exact .inl (ledger_afterFullSync s r run arming (f.grows_resume r _ _ _ _))
    | ended result => exact .inl rfl
    | panicked => exact .inl rfl

/-! ### The ledger of a history -/

/-- To stop adds nothing. -/
theorem ledger_stop (s : Synchronizer) (r : Replies) : (s.stop r).ledger = s.ledger := by
  cases hrunning : s.running with
  | false => rw [stop_of_not_running hrunning]
  | true =>
    rw [stop_of_running hrunning, ledger_callIf_of_not _ _ rfl, ledger_callIf_of_not _ _ rfl]
    rfl

/-- To start adds nothing. -/
theorem ledger_start {r : Replies} (ht : s.start r = .ok t) : t.ledger = s.ledger := by
  cases hrunning : s.running with
  | false =>
    rw [start_of_not_running hrunning] at ht
    rw [← Except.ok.inj ht, ledger_callIf_of_not _ _ rfl]
    rfl
  | true => rw [start_of_running hrunning] at ht; cases ht

/-- To start over deletes the kept pivot block at most. -/
theorem ledger_resync (s : Synchronizer) (r r' : Replies) :
    (s.resync r r').2.ledger = s.ledger ∨
      (s.resync r r').2.ledger = (s.handOvers ++ [.deletePivot], s.fallbackEnabled) := by
  have hstop := s.ledger_stop r
  rw [ledger_start (s.start_discarded r r')]
  have hdiscarded : (s.discarded r).ledger =
      ((s.stop r).callIf (s.stop r).catchUp?.isSome .deletePivot).ledger :=
    ledger_change_of_not _ rfl
  rw [hdiscarded]
  unfold callIf
  split
  · right
    rw [ledger_call_of _ rfl, (Prod.mk.inj hstop).1, (Prod.mk.inj hstop).2]
  · exact .inl hstop

/-- **What may be added to the ledger**: nothing, the deletion of the kept pivot block when the
synchronizer starts over, or a hand-over in a step. -/
theorem ledger_act (hfresh : .fresh ∉ s.runs) (a : Act) :
    (s.act a).ledger = s.ledger ∨
      (s.act a).ledger = (s.handOvers ++ [.deletePivot], s.fallbackEnabled) ∨
      ∃ r run event pivot, a = .step r run event ∧
        (s.act a).ledger = (s.handOvers ++ s.handedOver r pivot,
          s.fallbackEnabled || (r.handOverFault?.isNone && r.supportsFallback)) := by
  cases a with
  | start r =>
    left
    dsimp only [act]
    split
    · next t hstart => exact ledger_start hstart
    · rfl
  | stop r => exact .inl (s.ledger_stop r)
  | resync r r' =>
    rcases s.ledger_resync r r' with hsame | hdeleted
    · exact .inl hsame
    · exact .inr (.inl hdeleted)
  | step r run event =>
    have hrun : s.runs[run]? ≠ some .fresh := fun h => hfresh (List.mem_of_getElem? h)
    rcases ledger_resume hrun r event with hsame | ⟨pivot, -, hledger, -⟩
    · exact .inl hsame
    · exact .inr (.inr ⟨r, run, event, pivot, rfl, hledger⟩)
  | announce state =>
    exact .inl ((ledger_callIf_of_not _ _ rfl).trans (ledger_callIf_of_not _ _ rfl))
  | operate op =>
    left
    unfold ledger handOvers
    dsimp only [act]
    rw [s.book.only_perform fun _ => rfl]

/-- A hand-over has missing nodes fetched on demand if that is possible and not the case yet. -/
theorem count_handedOver (s : Synchronizer) (r : Replies) (pivot : SealedHeader) :
    (s.handedOver r pivot).count .enableFallback =
      (!s.fallbackEnabled && (r.handOverFault?.isNone && r.supportsFallback)).toNat := by
  unfold handedOver Replies.handOverFault?
  cases r.delete with
  | error f => simp
  | ok _ =>
    cases r.anchor with
    | error f => simp
    | ok _ =>
      have hfirst : [Call.deletePivot, .anchor pivot, .closeSelector, .change .initialDone].count
          .enableFallback = 0 := List.count_eq_zero.mpr (by simp)
      have hlast : (if r.overAfterCatchUp || s.fullSync.isNone then [] else
          [Call.startFullSync]).count .enableFallback = 0 := by
        split <;> simp
      dsimp only
      rw [List.count_append, List.count_append, hfirst, hlast]
      cases r.supportsFallback <;> cases s.fallbackEnabled <;> rfl

/-- The end of the initial phase comes before missing nodes are fetched on demand. -/
def DoneBeforeEnabled (calls : List Call) : Prop :=
  ∀ past rest, calls = past ++ .enableFallback :: rest → .change .initialDone ∈ past

/-- What does not enable it may come at any time. -/
theorem DoneBeforeEnabled.append_of_not_mem {calls new : List Call} (h : DoneBeforeEnabled calls)
    (hnew : .enableFallback ∉ new) : DoneBeforeEnabled (calls ++ new) := by
  intro past rest heq
  rcases List.append_eq_append_iff.mp heq with ⟨between, -, rfl⟩ | ⟨between, rfl, hrest⟩
  · exact absurd (List.mem_append_right _ List.mem_cons_self) hnew
  · cases between with
    | nil =>
      rw [List.nil_append] at hrest
      rw [← hrest] at hnew
      exact absurd List.mem_cons_self hnew
    | cons c between =>
      obtain ⟨rfl, -⟩ := List.cons.inj hrest
      exact h past between rfl

/-- Once the initial phase ended anything may come. -/
theorem DoneBeforeEnabled.append_of_mem {calls : List Call} (h : DoneBeforeEnabled calls)
    (hdone : .change .initialDone ∈ calls) (new : List Call) :
    DoneBeforeEnabled (calls ++ new) := by
  intro past rest heq
  rcases List.append_eq_append_iff.mp heq with ⟨between, rfl, -⟩ | ⟨between, rfl, hrest⟩
  · exact List.mem_append_left _ hdone
  · cases between with
    | nil =>
      rw [List.append_nil] at hdone
      exact hdone
    | cons c between =>
      obtain ⟨rfl, -⟩ := List.cons.inj hrest
      exact h past between rfl

/-- After a hand-over as before it, the end of the initial phase comes first. -/
theorem DoneBeforeEnabled.append_handedOver {calls : List Call} (h : DoneBeforeEnabled calls)
    (s : Synchronizer) (r : Replies) (pivot : SealedHeader) :
    DoneBeforeEnabled (calls ++ s.handedOver r pivot) := by
  unfold handedOver
  cases r.delete with
  | error f => exact h.append_of_not_mem (by simp)
  | ok _ =>
    cases r.anchor with
    | error f => exact h.append_of_not_mem (by simp)
    | ok _ =>
      dsimp only
      rw [List.append_assoc, ← List.append_assoc calls]
      exact (h.append_of_not_mem (by simp)).append_of_mem
        (List.mem_append_right _ (by simp)) _

/-- A step has missing nodes fetched on demand from then on, which is possible. -/
def Enables (s : Synchronizer) (a : Act) : Prop :=
  ∃ r run event, a = .step r run event ∧ r.supportsFallback = true ∧
    .enableFallback ∉ s.book.calls ∧ .enableFallback ∈ (s.act a).book.calls

/-- The calls of hand-overs are calls. -/
theorem mem_handOvers {c : Call} (h : c.handsOver = true) :
    c ∈ s.handOvers ↔ c ∈ s.book.calls := by
  unfold handOvers Logbook.only
  rw [List.mem_filter, and_iff_left h]

/-- What is known of fetching missing nodes on demand: how often it was enabled, what came before,
and how it came to it. -/
structure FallbackSafe (s₀ : Synchronizer) (h : List Act) : Prop where
  /-- It was enabled exactly if it is, and then once. -/
  once : (s₀.after h).handOvers.count .enableFallback = (s₀.after h).fallbackEnabled.toNat
  /-- The initial phase had ended. -/
  done : DoneBeforeEnabled (s₀.after h).handOvers
  /-- It was enabled in a step in which it was possible. -/
  possible : .enableFallback ∈ (s₀.after h).handOvers → Happened Enables s₀ h

/-- At first it is not enabled, and never was. -/
theorem Pristine.fallbackSafe (hs : s.Pristine) : FallbackSafe s [] := by
  have hnone : s.handOvers = [] := by
    unfold handOvers Logbook.only
    rw [hs.calls, List.filter_nil]
  refine ⟨?_, ?_, ?_⟩
  · rw [after_nil, hnone, hs.fallbackEnabled]
    rfl
  · rw [after_nil, hnone]
    intro past rest heq
    exact absurd heq (by simp)
  · rw [after_nil, hnone]
    intro hmem
    exact absurd hmem List.not_mem_nil

namespace FallbackSafe

variable {s₀ : Synchronizer} {h : List Act}

/-- What does not enable it keeps what is known of it. -/
theorem concat (hsafe : FallbackSafe s₀ h) (a : Act) {new : List Call}
    (hnew : .enableFallback ∉ new)
    (hledger : ((s₀.after h).act a).ledger =
      ((s₀.after h).handOvers ++ new, (s₀.after h).fallbackEnabled)) :
    FallbackSafe s₀ (h ++ [a]) := by
  obtain ⟨hcalls, hflag⟩ := Prod.mk.inj hledger
  refine ⟨?_, ?_, ?_⟩
  · rw [after_concat, hcalls, hflag, List.count_append, hsafe.once,
      List.count_eq_zero.mpr hnew, Nat.add_zero]
  · rw [after_concat, hcalls]
    exact hsafe.done.append_of_not_mem hnew
  · rw [after_concat, hcalls, List.mem_append]
    rintro (hmem | hmem)
    · exact (hsafe.possible hmem).later [a]
    · exact absurd hmem hnew

/-- A hand-over keeps what is known of it. -/
theorem concat_handedOver (hsafe : FallbackSafe s₀ h) {r : Replies} {event : Event}
    {pivot : SealedHeader}
    (hledger : ((s₀.after h).act (.step r run event)).ledger =
      ((s₀.after h).handOvers ++ (s₀.after h).handedOver r pivot,
        (s₀.after h).fallbackEnabled || (r.handOverFault?.isNone && r.supportsFallback))) :
    FallbackSafe s₀ (h ++ [.step r run event]) := by
  obtain ⟨hcalls, hflag⟩ := Prod.mk.inj hledger
  refine ⟨?_, ?_, ?_⟩
  · rw [after_concat, hcalls, hflag, List.count_append, count_handedOver, hsafe.once]
    cases (s₀.after h).fallbackEnabled <;>
      cases r.handOverFault?.isNone && r.supportsFallback <;> rfl
  · rw [after_concat, hcalls]
    exact hsafe.done.append_handedOver _ r pivot
  · intro hmem
    by_cases hold : .enableFallback ∈ (s₀.after h).handOvers
    · exact (hsafe.possible hold).later _
    · refine .now ⟨r, run, event, rfl, ?_, ?_, ?_⟩
      · -- it was enabled in this very step, so that it was possible
        rw [after_concat, hcalls, List.mem_append] at hmem
        have hpos := List.count_pos_iff.mpr (hmem.resolve_left hold)
        rw [count_handedOver] at hpos
        cases hsupports : r.supportsFallback with
        | true => rfl
        | false =>
          rw [hsupports, Bool.and_false, Bool.and_false] at hpos
          cases hpos
      · rwa [← mem_handOvers rfl]
      · rwa [← after_concat, ← mem_handOvers rfl]

end FallbackSafe

/-- **Missing nodes are fetched on demand at most once, only if that is possible, and not before
the initial phase ended**, in every history in which every run has something to catch up with. -/
theorem fallbackSafe_after {s₀ : Synchronizer} (hs : s₀.Pristine) (hcatchUps : s₀.catchUps ≠ [])
    (h : List Act) : FallbackSafe s₀ h := by
  induction h using List.reverseRecOn with
  | nil => exact hs.fallbackSafe
  | append_singleton h a ih =>
    have hfresh := fresh_not_mem_after hcatchUps hs.runs h
    rcases ledger_act hfresh a with hsame | hdeleted | ⟨r, run, event, pivot, rfl, hhanded⟩
    · apply ih.concat a List.not_mem_nil
      rw [hsame, List.append_nil]
      rfl
    · exact ih.concat a (by simp) hdeleted
    · exact ih.concat_handedOver hhanded

/-! ### The hand-over -/

/-- The stop signal ends an overtaken run, and well, wherever it is. -/
theorem runs_resume_stopSignalled (hsound : s.wiring.Sound) (hcurrent : s.isCurrent run = false)
    {downloader arming : Nat} {stage : CatchUp.Stage}
    (hrun : s.runs[run]? = some (.catchingUp downloader arming stage)) (r : Replies) :
    (s.resume r run .stopSignalled).runs[run]? = some (.ended (.ok ())) := by
  obtain ⟨c, hc, hstopped⟩ := hasStopped_of_overtaken hsound hcurrent hrun
  have hturn : (c.resume r s.book arming stage .stopSignalled).turn = .ended (.error .stopped) :=
    CatchUp.turn_resume_stopSignalled hstopped
  unfold resume
  rw [hrun]
  dsimp only
  rw [hc]
  unfold afterCatchUp
  dsimp only
  rw [hturn]
  dsimp only
  split
  · next hagain =>
    have hagain : s.isCurrent run = true := hagain
    rw [hcurrent] at hagain
    cases hagain
  · rw [runs_finish]
    exact List.getElem?_set_self (List.getElem?_eq_some_iff.mp hrun).1

/-- A run that never had nothing to catch up with hands over with the pivot block whose chain and
world state it asked for and received. -/
theorem handOvers_resume {s₀ : Synchronizer} (hruns : s₀.runs = []) (h : List Act)
    (hfresh : (s₀.after h).runs[run]? ≠ some .fresh) (r : Replies) (event : Event) :
    let s := s₀.after h
    let t := s.resume r run event
    t.handOvers = s.handOvers ∨ ∃ pivot, s.isCurrent run = true ∧
      Received s₀ (h ++ [.step r run event]) run pivot true true ∧
      t.handOvers = s.handOvers ++ s.handedOver r pivot ∧
      ∀ f, r.handOverFault? = some f → t.runs[run]? = some (.ended (.error (.fault f))) := by
  intro s t
  rcases ledger_resume hfresh r event with hsame | ⟨pivot, hcompletes, hledger, hfault⟩
  · exact .inl (Prod.mk.inj hsame).1
  · obtain ⟨hcurrent, downloader, arming, stage, c, hrun, -, hturn⟩ := hcompletes
    exact .inr ⟨pivot, hcurrent, received_of_ended hruns hrun hturn, (Prod.mk.inj hledger).1,
      hfault⟩

/-- An overtaken run hands nothing over. -/
theorem IsOvertaken.handOvers_resume (h : s.IsOvertaken run) (r : Replies) (event : Event) :
    (s.resume r run event).handOvers = s.handOvers := by
  obtain ⟨hcurrent, x, hx, hover⟩ := h
  have hfresh : s.runs[run]? ≠ some .fresh := by
    intro hrun
    obtain rfl := Option.some.inj (hrun.symm.trans hx)
    exact hover
  rcases ledger_resume hfresh r event with hsame | ⟨pivot, hcompletes, -⟩
  · exact (Prod.mk.inj hsame).1
  · have hagain := hcompletes.1
    rw [hcurrent] at hagain
    cases hagain

/-- An overtaken run that is orderly goes on catching up or ended well. -/
theorem IsOvertaken.cases_of_orderly (h : s.IsOvertaken run) (hs : ∀ x ∈ s.runs, Run.Orderly x) :
    (∃ downloader arming stage, s.runs[run]? = some (.catchingUp downloader arming stage)) ∨
      s.runs[run]? = some (.ended (.ok ())) := by
  obtain ⟨-, x, hx, hover⟩ := h
  have horderly : x.Orderly := hs x (List.mem_of_getElem? hx)
  cases x with
  | fresh => exact hover.elim
  | catchingUp downloader arming stage => exact .inl ⟨downloader, arming, stage, hx⟩
  | following arming stage => exact hover.elim
  | ended result =>
    cases result with
    | ok _ => exact .inr hx
    | error e => exact hover.elim
  | panicked => exact horderly.elim

/-- Missing nodes were begun to be fetched on demand once at most. -/
theorem FallbackSafe.count_le {s₀ : Synchronizer} {h : List Act} (hsafe : FallbackSafe s₀ h) :
    (s₀.after h).book.calls.count .enableFallback ≤ 1 := by
  have hcount : (s₀.after h).handOvers.count .enableFallback =
      (s₀.after h).book.calls.count .enableFallback := List.count_filter rfl
  rw [← hcount, hsafe.once]
  exact Bool.toNat_le _

/-- The end of the initial phase comes first among all calls. -/
theorem FallbackSafe.doneBeforeEnabled {s₀ : Synchronizer} {h : List Act}
    (hsafe : FallbackSafe s₀ h) : DoneBeforeEnabled (s₀.after h).book.calls := by
  intro past rest heq
  have hsplit : (s₀.after h).handOvers =
      past.filter Call.handsOver ++ .enableFallback :: rest.filter Call.handsOver := by
    unfold handOvers Logbook.only
    rw [heq, List.filter_append, List.filter_cons_of_pos rfl]
  have hdone := hsafe.done _ _ hsplit
  exact (List.mem_filter.mp hdone).1

/-- **The hand-over from catching up is safe.** Assemble a synchronizer in a pivoted mode and let
anything happen to it, in any order, whatever the collaborators answer. Then, after any such
history:

* a step hands over as a whole or not at all; it does so only if its run is current, with the pivot
  block whose chain and world state that run asked for and received, in the order of
  `Synchronizer.handedOver`; and if the deletion or the anchoring fails, nothing follows and the
  run ends with that fault;
* a run that is not current while it still catches up hands nothing over in any later step; its
  stop signal ends it well; and with orderly collaborators it goes on catching up or has ended well;
* with orderly collaborators no run ends as stopped;
* missing nodes were begun to be fetched on demand at most once, after the initial phase ended, and
  in a step in which that was possible. -/
theorem handOver_safe {config : SyncConfig} {has : Collaborators} {isOver : Bool} {idle : Duration}
    {state : Option State} {s₀ : Synchronizer}
    (hs : assemble config has isOver idle state = .ok s₀) (hmode : config.mode.isPivoted = true)
    (h : List Act) :
    let s := s₀.after h
    (∀ r run event,
      let t := s.resume r run event
      t.handOvers = s.handOvers ∨ ∃ pivot, s.isCurrent run = true ∧
        Received s₀ (h ++ [.step r run event]) run pivot true true ∧
        t.handOvers = s.handOvers ++ s.handedOver r pivot ∧
        ∀ f, r.handOverFault? = some f → t.runs[run]? = some (.ended (.error (.fault f)))) ∧
    (∀ run downloader arming stage,
      s.runs[run]? = some (.catchingUp downloader arming stage) → s.isCurrent run = false →
      ∀ rest,
        let t := s.after rest
        (∀ r event, (t.resume r run event).handOvers = t.handOvers) ∧
        (∀ downloader arming stage, t.runs[run]? = some (.catchingUp downloader arming stage) →
          ∀ r, (t.resume r run .stopSignalled).runs[run]? = some (.ended (.ok ()))) ∧
        ((∀ x ∈ h ++ rest, x.Orderly) →
          (∃ downloader arming stage,
            t.runs[run]? = some (.catchingUp downloader arming stage)) ∨
          t.runs[run]? = some (.ended (.ok ())))) ∧
    ((∀ x ∈ h, x.Orderly) → .ended (.error .stopped) ∉ s.runs) ∧
    s.book.calls.count .enableFallback ≤ 1 ∧
    (∀ past rest, s.book.calls = past ++ .enableFallback :: rest → .change .initialDone ∈ past) ∧
    (.enableFallback ∈ s.book.calls → Happened Enables s₀ h) := by
  intro s
  obtain ⟨hpristine, hpivoted⟩ := pristine_assemble hs
  have hcatchUps : s₀.catchUps ≠ [] := hpivoted.mpr hmode
  have hsafe := fallbackSafe_after hpristine hcatchUps h
  refine ⟨?_, ?_, ?_, hsafe.count_le, hsafe.doneBeforeEnabled, ?_⟩
  · intro r run event
    apply handOvers_resume hpristine.runs h
    intro hrun
    exact fresh_not_mem_after hcatchUps hpristine.runs h (List.mem_of_getElem? hrun)
  · intro run downloader arming stage hrun hcurrent rest t
    have hover : t.IsOvertaken run := IsOvertaken.after ⟨hcurrent, _, hrun, trivial⟩ rest
    have ht : t = s₀.after (h ++ rest) := (s₀.after_append h rest).symm
    refine ⟨hover.handOvers_resume, ?_, ?_⟩
    · intro downloader' arming' stage' hrun' r
      have hsound : t.wiring.Sound := by
        rw [ht]
        exact hpristine.sound_after _
      exact runs_resume_stopSignalled hsound hover.1 hrun' r
    · intro horderly
      apply hover.cases_of_orderly
      rw [ht]
      exact fun x hx => hpristine.orderly_after horderly hx
  · intro horderly hmem
    exact hpristine.orderly_after horderly hmem rfl
  · intro hmem
    exact hsafe.possible ((mem_handOvers rfl).mpr hmem)

/-- A run that waits for nothing but the world state of its pivot block. -/
def almostThere : List Act :=
  [.start (agreeable false), .step (agreeable true) 0 .begun,
    .step (agreeable true) 0 (.selected (.ok default)),
    .step (agreeable true) 0 (.chainImported (.ok ()))]

/-- A run hands over when it receives the last it waits for. -/
theorem handOver_safe_of_almostThere :
    assemble {} {} false FullSync.defaultIdle none = .ok usual ∧
      ({} : SyncConfig).mode.isPivoted = true ∧
      ∃ pivot, (usual.after almostThere).isCurrent 0 = true ∧
        Received usual (almostThere ++ [.step (agreeable true) 0 (.stateDownloaded (.ok ()))])
          0 pivot true true := by
  have hsafe := handOver_safe assemble_usual rfl almostThere
  rcases hsafe.1 (agreeable true) 0 (.stateDownloaded (.ok ())) with
    hnothing | ⟨pivot, hcurrent, hreceived, -⟩
  · exact absurd (congrArg List.length hnothing) (by decide)
  · exact ⟨assemble_usual, rfl, pivot, hcurrent, hreceived⟩

end Synchronizer

end ExecutionNode.Sync
