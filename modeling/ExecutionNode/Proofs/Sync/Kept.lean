import ExecutionNode.Proofs.Sync.Restart

/-!
# The kept pivot block

A catch-up that was interrupted need not begin from nothing, because its pivot block is kept in a
store.  What the store keeps at some moment is what the calls of the history made of it, if it gives
back what was last kept: `Synchronizer.kept` says so, for any pivot block kept at first.

* `Makes` says once what a synchronizer calls when something happens to it (`makes_newCalls`). Of
  that, what is done about pivot blocks is all that reaches the store (`keeps_eq`).
* `keeps_cases` says once what can become of the kept pivot block: a run keeps one that was chosen
  for it, or a run hands over and forgets it.
-/

namespace ExecutionNode.Sync

/-! ### What the store keeps -/

/-- What is kept after a call, which was answered so. -/
def Call.stores (r : Replies) (kept : Option SealedHeader) : Call → Option SealedHeader
  | savePivot pivot =>
    match r.save with
    | .ok () => some pivot
    | .error _ => kept
  | deletePivot =>
    match r.delete with
    | .ok () => none
    | .error _ => kept
  | _ => kept

/-- The answers to what is asked of the store, if it can be asked. -/
def Act.replies? : Act → Option Replies
  | .start r => some r
  | .stop r => some r
  | .resync _ r' => some r'
  | .step r _ _ => some r
  | .announce _ => none
  | .operate _ => none

namespace Synchronizer

/-- The calls that are made when something happens. -/
def newCalls (s : Synchronizer) (a : Act) : List Call :=
  (s.act a).book.calls.drop s.book.calls.length

/-- What is kept after something happened. -/
def keeps (s : Synchronizer) (kept : Option SealedHeader) (a : Act) : Option SealedHeader :=
  match a.replies? with
  | some r => (s.newCalls a).foldl (Call.stores r) kept
  | none => kept

/-- What is kept after a history. -/
def kept (s : Synchronizer) (kept₀ : Option SealedHeader) : List Act → Option SealedHeader
  | [] => kept₀
  | a :: h => (s.act a).kept (s.keeps kept₀ a) h

/-- A history goes on where its first part ended. -/
theorem kept_append (s : Synchronizer) (k₀ : Option SealedHeader) (past rest : List Act) :
    s.kept k₀ (past ++ rest) = (s.after past).kept (s.kept k₀ past) rest := by
  induction past generalizing s k₀ with
  | nil => rfl
  | cons a past ih => exact ih (s.act a) (s.keeps k₀ a)

/-- What is kept in the end is what the last of a history made of what was kept before. -/
theorem kept_concat (s : Synchronizer) (k₀ : Option SealedHeader) (h : List Act) (a : Act) :
    s.kept k₀ (h ++ [a]) = (s.after h).keeps (s.kept k₀ h) a := by
  rw [kept_append]
  rfl

/-! ### What can happen to it -/

/-- What a synchronizer calls when something happens to it. -/
inductive Makes (s : Synchronizer) : Act → List Call → Prop where
  /-- It runs already. -/
  | runs (r : Replies) : Makes s (.start r) []
  /-- It starts. -/
  | starts (r : Replies) : Makes s (.start r) (s.startCalls r)
  /-- It stops. -/
  | stops (r : Replies) : Makes s (.stop r) (s.stopCalls r)
  /-- It starts over. -/
  | startsOver (r r' : Replies) (notices : List Notice) :
      Makes s (.resync r r') (s.stopCalls r ++
        (if s.catchUp?.isSome then [.deletePivot] else []) ++
          .change .restart :: notices.map .notify ++ s.startCalls r')
  /-- A run goes on. -/
  | goesOn (r : Replies) (run : Nat) (event : Event) {calls : List Call}
      (hcalls : (s.resume r run event).book.calls = s.book.calls ++ calls)
      (hgoes : ∀ c ∈ calls, c.goesOn = true ∨ ∃ n, c = .notify n) :
      Makes s (.step r run event) calls
  /-- It passes a forkchoice state on. -/
  | passesOn (state : ForkchoiceState) :
      Makes s (.announce state) ((if s.propagates then [.announceToPropagation state] else []) ++
        if s.catchUp?.isSome then [.announceToSelector state] else [])
  /-- Somebody operates on the sync state. -/
  | notifies (op : Operation) (notices : List Notice) : Makes s (.operate op) (notices.map .notify)

/-- **What is called when something happens comes in addition.** -/
theorem exists_makes (s : Synchronizer) (a : Act) :
    ∃ new, (s.act a).book.calls = s.book.calls ++ new ∧ s.Makes a new := by
  cases a with
  | start r =>
    cases hstart : s.start r with
    | error e => exact ⟨[], by rw [act_start_of_error hstart, List.append_nil], .runs r⟩
    | ok t => exact ⟨_, by rw [act_start_of_ok hstart]; exact calls_start hstart, .starts r⟩
  | stop r => exact ⟨_, s.calls_stop r, .stops r⟩
  | resync r r' =>
    obtain ⟨notices, hcalls⟩ := s.calls_resync r r'
    exact ⟨_, hcalls, .startsOver r r' notices⟩
  | step r run event =>
    obtain ⟨new, hcalls, hgoes⟩ := (s.extends_resume r run event).exists_new
    exact ⟨new, hcalls, .goesOn r run event hcalls hgoes⟩
  | announce state =>
    refine ⟨_, ?_, .passesOn state⟩
    rw [← List.append_assoc, ← calls_callIf]
    exact calls_callIf _ _ _
  | operate op => exact ⟨_, rfl, .notifies op _⟩

/-- The calls are there that were made, and those that are new. -/
theorem calls_act (s : Synchronizer) (a : Act) :
    (s.act a).book.calls = s.book.calls ++ s.newCalls a := by
  obtain ⟨new, hcalls, -⟩ := s.exists_makes a
  rw [newCalls, hcalls, List.drop_left]

/-- **What a synchronizer calls when something happens to it.** -/
theorem makes_newCalls (s : Synchronizer) (a : Act) : s.Makes a (s.newCalls a) := by
  obtain ⟨new, hcalls, hmakes⟩ := s.exists_makes a
  rwa [newCalls, hcalls, List.drop_left]

/-- What is done about pivot blocks when something happens. -/
def pivotCalls (s : Synchronizer) : Act → List Call
  | .step r run event => s.pursuit r run event
  | .resync .. => if s.catchUp?.isSome then [.deletePivot] else []
  | _ => []

/-- To stop is not about pivot blocks. -/
theorem pivots_stopCalls (s : Synchronizer) (r : Replies) :
    (s.stopCalls r).filter Call.concernsPivot = [] := by
  unfold stopCalls
  split
  · rw [List.filter_append]
    split <;> split <;> rfl
  · rfl

/-- To start is not about pivot blocks. -/
theorem pivots_startCalls (s : Synchronizer) (r : Replies) :
    (s.startCalls r).filter Call.concernsPivot = [] := by
  unfold startCalls
  split <;> rfl

/-- To give notice is not about pivot blocks. -/
theorem pivots_notices (notices : List Notice) :
    (notices.map Call.notify).filter Call.concernsPivot = [] := by
  rw [List.filter_map]
  exact List.map_eq_nil_iff.mpr (List.filter_eq_nil_iff.mpr fun _ _ => Bool.false_ne_true)

/-- **This much of what is called when something happens** is about pivot blocks. -/
theorem filter_newCalls (s : Synchronizer) (a : Act) :
    (s.newCalls a).filter Call.concernsPivot = s.pivotCalls a := by
  have hmakes := s.makes_newCalls a
  generalize s.newCalls a = calls at hmakes ⊢
  cases hmakes with
  | runs => rfl
  | starts r => exact s.pivots_startCalls r
  | stops r => exact s.pivots_stopCalls r
  | startsOver r r' notices =>
    simp only [List.filter_append, List.filter_cons, pivots_stopCalls, pivots_startCalls,
      pivots_notices, List.append_nil, List.nil_append]
    unfold pivotCalls
    split <;> rfl
  | goesOn r run event hcalls =>
    have hpursuit := s.pursuit_resume r run event
    unfold Logbook.only at hpursuit
    rw [hcalls, List.filter_append] at hpursuit
    exact List.append_cancel_left hpursuit
  | passesOn state =>
    rw [List.filter_append]
    split <;> split <;> rfl
  | notifies op notices => exact pivots_notices notices

end Synchronizer

/-- A call that is not about pivot blocks does not reach the store. -/
theorem Call.stores_of_not {c : Call} (h : c.concernsPivot = false) (r : Replies)
    (kept : Option SealedHeader) : c.stores r kept = kept := by
  cases c with
  | savePivot _ => cases h
  | deletePivot => cases h
  | _ => rfl

/-- What is kept after calls depends on those about pivot blocks alone. -/
theorem Call.foldl_stores_filter (r : Replies) (calls : List Call) (kept : Option SealedHeader) :
    (calls.filter Call.concernsPivot).foldl (Call.stores r) kept =
      calls.foldl (Call.stores r) kept := by
  rw [List.foldl_filter]
  congr 1
  funext kept c
  split
  · rfl
  next hother => exact (c.stores_of_not ((Bool.not_eq_true _).mp hother) r kept).symm

namespace Synchronizer

/-- What is kept depends on what is done about pivot blocks alone. -/
theorem keeps_eq (s : Synchronizer) (kept : Option SealedHeader) (a : Act) :
    s.keeps kept a =
      match a.replies? with
      | some r => (s.pivotCalls a).foldl (Call.stores r) kept
      | none => kept := by
  rw [keeps, ← filter_newCalls]
  split
  · exact (Call.foldl_stores_filter _ _ kept).symm
  · rfl

/-- A run that is not current keeps a pivot block. -/
def PersistsLate (s : Synchronizer) (a : Act) : Prop :=
  ∃ run pivot, Persists run pivot s a ∧ s.isCurrent run = false

/-- What is done with a kept pivot block does not reach the store. -/
theorem foldl_stores_taken (c : CatchUp) (r r' : Replies) (pivot : SealedHeader)
    (kept : Option SealedHeader) : (c.taken r pivot).foldl (Call.stores r') kept = kept := by
  unfold CatchUp.taken
  split
  · rfl
  · split <;> rfl

/-- **What can happen to the kept pivot block**, unless somebody starts over: nothing, or a run
keeps one that was chosen for it, or a run hands over. -/
theorem keeps_cases (s : Synchronizer) (kept : Option SealedHeader) {a : Act}
    (ha : a.startsOver = false) :
    s.keeps kept a = kept ∨ (∃ run pivot, Persists run pivot s a ∧ s.keeps kept a = some pivot) ∨
      ∃ run, Arrives run s a := by
  rw [keeps_eq]
  cases a with
  | resync r r' => cases ha
  | step r run event =>
    by_cases harrives : ∃ pivot, Completes s r run event pivot
    · obtain ⟨pivot, hcompletes⟩ := harrives
      exact .inr (.inr ⟨run, r, event, pivot, rfl, hcompletes⟩)
    dsimp only [Act.replies?, pivotCalls]
    cases hrun : s.runs[run]? with
    | none => unfold pursuit; rw [hrun]; exact .inl rfl
    | some x =>
      cases x with
      | catchingUp downloader arming stage =>
        cases hc : s.catchUps[downloader]? with
        | none => unfold pursuit; rw [hrun]; dsimp only; rw [hc]; exact .inl rfl
        | some c =>
          have hpursuit : s.pursuit r run event = c.pursuit r stage event := by
            rw [pursuit_of_catchingUp hrun hc]
            split
            next pivot hturn =>
              split
              next hcurrent =>
                exact absurd ⟨pivot, hcurrent, _, _, _, _, hrun, hc, hturn⟩ harrives
              · exact List.append_nil _
            · exact List.append_nil _
          rw [hpursuit]
          unfold CatchUp.pursuit
          split
          · split
            · exact .inl rfl
            · split
              · exact .inl rfl
              · exact .inl (foldl_stores_taken c r r _ kept)
              · exact .inl rfl
          next pivot =>
            dsimp only [List.foldl_cons, Call.stores]
            cases hsave : r.save with
            | error f => exact .inl rfl
            | ok _ =>
              exact .inr (.inl ⟨run, pivot, ⟨r, _, _, rfl, hrun, hsave⟩,
                foldl_stores_taken c r r pivot (some pivot)⟩)
          · exact .inl rfl
      | _ => unfold pursuit; rw [hrun]; exact .inl rfl
  | _ => exact .inl rfl

end Synchronizer

end ExecutionNode.Sync
