import ExecutionNode.Sync.State
import Mathlib.Data.List.Basic

/-!
# How deep reactions nest

An operation runs within a depth that is fixed at its beginning: the number of reactions that are
still to come, with those that the operation brings along.  A listener gives up a reaction before
it runs it, and operations add no more than they bring along (`bounded_performWithin`), so the
depth never cuts a reaction off: an operation is a step in which the reactions are operations
again (`perform_eq_step`).
-/

namespace ExecutionNode.Sync

namespace State

variable {s : State} {react react' : Operation → State → State} {bound : Nat}

/-- The number of reactions that are still to come from listeners. -/
def reactionsOf (ls : List Listener) : Nat :=
  ls.foldr (fun l sum => Operation.reactionsWeight l.reactions + sum) 0

@[simp] theorem reactionsOf_append (ls ls' : List Listener) :
    reactionsOf (ls ++ ls') = reactionsOf ls + reactionsOf ls' := by
  induction ls with
  | nil => exact (Nat.zero_add _).symm
  | cons l ls ih =>
    show Operation.reactionsWeight l.reactions + reactionsOf (ls ++ ls') = _
    rw [ih, ← Nat.add_assoc]
    rfl

/-- A listener that gives up a reaction leaves as many fewer to come as that has. -/
theorem reactionsOf_set {ls : List Listener} {id : Nat} {name : String} {ops : List Operation}
    {rest : List (List Operation)} (h : ls[id]? = some ⟨name, ops :: rest⟩) :
    reactionsOf (ls.set id ⟨name, rest⟩) + (1 + Operation.listWeight ops) = reactionsOf ls := by
  induction ls generalizing id with
  | nil => cases h
  | cons l ls ih =>
    cases id with
    | zero =>
      obtain rfl : l = ⟨name, ops :: rest⟩ := Option.some.inj h
      show Operation.reactionsWeight rest + reactionsOf ls + _ =
        1 + Operation.listWeight ops + Operation.reactionsWeight rest + reactionsOf ls
      omega
    | succ id =>
      have htail := ih (show ls[id]? = some ⟨name, ops :: rest⟩ from h)
      show Operation.reactionsWeight l.reactions + reactionsOf (ls.set id ⟨name, rest⟩) + _ =
        Operation.reactionsWeight l.reactions + reactionsOf ls
      omega

/-! ### What reactions leave to come -/

/-- Operations add no more reactions than they bring along. -/
def Bounded (react : Operation → State → State) : Prop :=
  ∀ op t, (react op t).pendingReactions ≤ op.weight + t.pendingReactions

/-- Two ways to perform reactions agree where fewer than so many are to come. -/
def AgreeBelow (bound : Nat) (react react' : Operation → State → State) : Prop :=
  ∀ op t, op.weight + t.pendingReactions < bound → react op t = react' op t

section agree

variable (hbounded : Bounded react) (hagree : AgreeBelow bound react react')

include hbounded hagree

/-- Operations in a row, of which fewer than the bound are to come, have the same effect, and add
no more reactions than they bring along. -/
theorem foldl_react_congr {ops : List Operation}
    (h : Operation.listWeight ops + s.pendingReactions < bound) :
    ops.foldl (fun s op => react op s) s = ops.foldl (fun s op => react' op s) s ∧
      (ops.foldl (fun s op => react op s) s).pendingReactions ≤
        Operation.listWeight ops + s.pendingReactions := by
  induction ops generalizing s with
  | nil => exact ⟨rfl, Nat.le_add_left ..⟩
  | cons op ops ih =>
    have hweight : Operation.listWeight (op :: ops) = op.weight + Operation.listWeight ops := by
      rw [Operation.listWeight]
    rw [hweight] at h ⊢
    have hop := hbounded op s
    obtain ⟨hsame, hleft⟩ := ih (s := react op s) (by omega)
    rw [List.foldl_cons, List.foldl_cons, ← hagree op s (by omega)]
    exact ⟨hsame, by omega⟩

/-- A notice has the same effect, and leaves no more reactions to come than before. -/
theorem deliver_congr (h : s.pendingReactions ≤ bound) (n : Notice) :
    s.deliver react n = s.deliver react' n ∧
      (s.deliver react n).pendingReactions ≤ s.pendingReactions := by
  unfold deliver
  dsimp only
  split
  next name ops rest hlistener =>
    have hpop : reactionsOf (s.listeners.set n.listener ⟨name, rest⟩)
        + (1 + Operation.listWeight ops) = s.pendingReactions := reactionsOf_set hlistener
    have hfewer : Operation.listWeight ops
        + reactionsOf (s.listeners.set n.listener ⟨name, rest⟩) < s.pendingReactions := by
      omega
    obtain ⟨hsame, hleft⟩ := foldl_react_congr (s := { s with
      notices := s.notices ++ [n]
      listeners := s.listeners.set n.listener ⟨name, rest⟩ }) hbounded hagree
      (Nat.lt_of_lt_of_le hfewer h)
    exact ⟨hsame, Nat.le_trans hleft (Nat.le_of_lt hfewer)⟩
  next => exact ⟨rfl, Nat.le_refl _⟩

/-- Notices in a row have the same effect, and leave no more reactions to come than before. -/
theorem foldl_deliver_congr {α : Type} (h : s.pendingReactions ≤ bound) (notice : α → Notice)
    (xs : List α) :
    xs.foldl (fun s x => s.deliver react (notice x)) s =
        xs.foldl (fun s x => s.deliver react' (notice x)) s ∧
      (xs.foldl (fun s x => s.deliver react (notice x)) s).pendingReactions ≤
        s.pendingReactions := by
  induction xs generalizing s with
  | nil => exact ⟨rfl, Nat.le_refl _⟩
  | cons x xs ih =>
    obtain ⟨hfirst, hleft⟩ := deliver_congr hbounded hagree h (notice x)
    obtain ⟨hsame, hrest⟩ := ih (s := s.deliver react (notice x)) (Nat.le_trans hleft h)
    rw [List.foldl_cons, List.foldl_cons, ← hfirst]
    exact ⟨hsame, Nat.le_trans hrest hleft⟩

theorem deliverInSync_congr (h : s.pendingReactions ≤ bound) (p : Progress) :
    s.deliverInSync react p = s.deliverInSync react' p ∧
      (s.deliverInSync react p).pendingReactions ≤ s.pendingReactions := by
  unfold deliverInSync
  exact foldl_deliver_congr hbounded hagree (by exact h)
    (fun sub : InSyncSubscription => ⟨sub.id, .inSync (p.inSync sub.tolerance)⟩) _

theorem update_congr (h : s.pendingReactions ≤ bound) (c : Progress.Change) :
    s.update react c = s.update react' c ∧
      (s.update react c).pendingReactions ≤ s.pendingReactions := by
  unfold update
  dsimp only
  split
  · exact deliverInSync_congr hbounded hagree (s := { s with
      progress := s.progress.after c
      measured := true }) h _
  · obtain ⟨htold, hleft⟩ := foldl_deliver_congr hbounded hagree (s := { s with
      progress := s.progress.after c
      measured := true }) h
      (fun id => ⟨id, .status ((s.progress.after c).status s.tolerance)⟩) s.statusSubscriptions
    unfold deliverStatus
    rw [← htold]
    obtain ⟨hsame, hrest⟩ := deliverInSync_congr hbounded hagree (Nat.le_trans hleft h)
      (s.progress.after c)
    exact ⟨hsame, Nat.le_trans hrest hleft⟩

/-- A step has the same effect, and adds no more reactions than the operation brings along. -/
theorem step_congr {op : Operation} (h : op.weight + s.pendingReactions ≤ bound) :
    step react op s = step react' op s ∧
      (step react op s).pendingReactions ≤ op.weight + s.pendingReactions := by
  cases op with
  | change c =>
    have hweight : (Operation.change c).weight = 0 := by rw [Operation.weight]
    rw [hweight, Nat.zero_add] at h ⊢
    exact update_congr hbounded hagree h c
  | subscribeStatus name reactions =>
    refine ⟨rfl, ?_⟩
    show reactionsOf (s.listeners ++ [⟨name, reactions⟩]) ≤ _
    rw [reactionsOf_append, Operation.weight, Nat.add_comm]
    exact Nat.le_refl _
  | subscribeInSync name tolerance reactions =>
    refine ⟨rfl, ?_⟩
    show reactionsOf (s.listeners ++ [⟨name, reactions⟩]) ≤ _
    rw [reactionsOf_append, Operation.weight, Nat.add_comm]
    exact Nat.le_refl _
  | unsubscribeStatus id => exact ⟨rfl, Nat.le_add_left ..⟩
  | unsubscribeInSync id => exact ⟨rfl, Nat.le_add_left ..⟩

end agree

/-! ### The depth is never reached -/

/-- An operation adds no more reactions than it brings along, at whatever depth. -/
theorem bounded_performWithin (depth : Nat) : Bounded (performWithin depth) := by
  have hstep {react : Operation → State → State} (hreact : Bounded react) : Bounded (step react) :=
    fun _ _ => (step_congr hreact (fun _ _ _ => rfl) (Nat.le_refl _)).2
  induction depth with
  | zero => exact hstep fun _ _ => Nat.le_add_left ..
  | succ depth ih => exact hstep ih

/-- All depths that the reactions to come do not exceed lead to the same. -/
theorem performWithin_congr {depth depth' : Nat} {op : Operation}
    (h : op.weight + s.pendingReactions ≤ depth) (h' : op.weight + s.pendingReactions ≤ depth') :
    performWithin depth op s = performWithin depth' op s := by
  have hnone : Bounded fun _ t => t := fun _ _ => Nat.le_add_left ..
  have hbelow (react react' : Operation → State → State) : AgreeBelow 0 react react' :=
    fun _ _ hlt => absurd hlt (Nat.not_lt_zero _)
  -- both depths go down together; what the reactions start is strictly less than what is to come
  induction depth generalizing depth' op s with
  | zero =>
    cases depth' with
    | zero => rfl
    | succ depth' => exact (step_congr hnone (hbelow _ _) h).1
  | succ depth ih =>
    cases depth' with
    | zero => exact (step_congr (bounded_performWithin depth) (hbelow _ _) h').1
    | succ depth' =>
      have hagree : AgreeBelow (op.weight + s.pendingReactions) (performWithin depth)
          (performWithin depth') :=
        fun op' t hlt => ih (by omega) (by omega)
      exact (step_congr (bounded_performWithin depth) hagree (Nat.le_refl _)).1

/-- **An operation is a step in which the reactions are operations.** -/
theorem perform_eq_step (op : Operation) (s : State) : perform op s = step perform op s := by
  have hagree : AgreeBelow (op.weight + s.pendingReactions)
      (performWithin (op.weight + s.pendingReactions)) perform :=
    fun op' t hlt => performWithin_congr (Nat.le_of_lt hlt) (Nat.le_refl _)
  calc perform op s
    _ = performWithin (op.weight + s.pendingReactions + 1) op s :=
      performWithin_congr (Nat.le_refl _) (Nat.le_succ _)
    _ = step perform op s := (step_congr (bounded_performWithin _) hagree (Nat.le_refl _)).1

end State

end ExecutionNode.Sync
