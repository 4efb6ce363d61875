import ExecutionNode.Proofs.Sync.Progress
import ExecutionNode.Proofs.Sync.Registries

/-!
# Listeners that keep to some changes

A listener may change the progress from inside a notice, and so may an operation from outside.  If
all that listeners do are changes of a kind, and subscriptions that bring along no others, then
whatever changes of that kind keep is kept by every operation, however deep reactions nest
(`State.Confined.perform`), and another change has the effect that it has by itself as far as they
keep that (`State.Confined.perform_change`).  Listeners that only hear are confined to every kind
(`State.Quiet.confined`).
-/

namespace ExecutionNode.Sync

variable {Q : Progress.Change → Prop}

/-- An operation makes changes of a kind alone, in the reactions that it brings along too. -/
inductive Operation.Confined (Q : Progress.Change → Prop) : Operation → Prop where
  | change {c : Progress.Change} (hc : Q c) : Confined Q (.change c)
  | subscribeStatus (name : String) {reactions : List (List Operation)}
      (h : ∀ ops ∈ reactions, ∀ op ∈ ops, Confined Q op) :
      Confined Q (.subscribeStatus name reactions)
  | subscribeInSync (name : String) (tolerance : Option UInt64) {reactions : List (List Operation)}
      (h : ∀ ops ∈ reactions, ∀ op ∈ ops, Confined Q op) :
      Confined Q (.subscribeInSync name tolerance reactions)
  | unsubscribeStatus (id : Nat) : Confined Q (.unsubscribeStatus id)
  | unsubscribeInSync (id : Nat) : Confined Q (.unsubscribeInSync id)

namespace State

variable {s : State} {react : Operation → State → State} {op : Operation} {P : Progress → Prop}

/-- All that listeners do from inside a notice are changes of a kind. -/
def Confined (Q : Progress.Change → Prop) (s : State) : Prop :=
  ∀ l ∈ s.listeners, ∀ ops ∈ l.reactions, ∀ op ∈ ops, op.Confined Q

/-- Listeners that do nothing are confined to every kind. -/
theorem Quiet.confined (h : s.Quiet) (Q : Progress.Change → Prop) : s.Confined Q := by
  intro l hl ops hops
  rw [h l hl] at hops
  cases hops

namespace Confined

/-- Who joins with reactions that are confined leaves the listeners so. -/
theorem concat (h : s.Confined Q) (name : String) {reactions : List (List Operation)}
    (hreactions : ∀ ops ∈ reactions, ∀ op ∈ ops, op.Confined Q) :
    ∀ l ∈ s.listeners ++ [⟨name, reactions⟩], ∀ ops ∈ l.reactions, ∀ op ∈ ops, op.Confined Q :=
  List.forall_mem_append.mpr ⟨h, List.forall_mem_singleton.mpr hreactions⟩

/-- Whatever confined listeners do keeps what confined operations keep. -/
theorem keeps
    (hreact : ∀ op t, op.Confined Q → t.Confined Q ∧ P t.progress →
      (react op t).Confined Q ∧ P (react op t).progress) :
    Keeps react fun t => t.Confined Q ∧ P t.progress where
  pop := by
    intro t id name ops rest ht hlistener
    refine ⟨fun l hl => ?_, ht.2⟩
    rcases List.mem_or_eq_of_mem_set hl with hold | rfl
    · exact ht.1 l hold
    · exact fun ops' hops' =>
        ht.1 _ (List.mem_of_getElem? hlistener) ops' (List.mem_cons_of_mem _ hops')
  react ht hlistener op hop u hu :=
    hreact op u (ht.1 _ (List.mem_of_getElem? hlistener) _ List.mem_cons_self op hop) hu

/-- Among confined listeners a change has the effect that it has by itself, as far as confined
operations keep that. -/
theorem update
    (hreact : ∀ op t, op.Confined Q → t.Confined Q ∧ P t.progress →
      (react op t).Confined Q ∧ P (react op t).progress)
    (h : s.Confined Q) {c : Progress.Change} (hc : P (s.progress.after c)) :
    (s.update react c).Confined Q ∧ P (s.update react c).progress := by
  have hkeeps := keeps hreact
  have htold : ∀ {t : State} (p : Progress), t.Confined Q ∧ P t.progress →
      (t.deliverInSync react p).Confined Q ∧ P (t.deliverInSync react p).progress := by
    intro t p ht
    unfold deliverInSync
    exact hkeeps.foldl_deliver (fun _ _ _ hu => hu) ht
  unfold State.update
  dsimp only
  apply htold
  split
  · exact ⟨h, hc⟩
  · unfold deliverStatus
    exact hkeeps.foldl_deliver (fun _ _ _ hu => hu) ⟨h, hc⟩

/-- A confined step keeps what changes of the kind keep, if the reactions do. -/
theorem step (hP : ∀ p c, Q c → P p → P (p.after c))
    (hreact : ∀ op t, op.Confined Q → t.Confined Q ∧ P t.progress →
      (react op t).Confined Q ∧ P (react op t).progress)
    (hop : op.Confined Q) (h : s.Confined Q ∧ P s.progress) :
    (step react op s).Confined Q ∧ P (step react op s).progress := by
  cases hop with
  | change hc => exact update hreact h.1 (hP _ _ hc h.2)
  | subscribeStatus name hreactions => exact ⟨h.1.concat name hreactions, h.2⟩
  | subscribeInSync name tolerance hreactions => exact ⟨h.1.concat name hreactions, h.2⟩
  | unsubscribeStatus id => exact h
  | unsubscribeInSync id => exact h

/-- **What changes of a kind keep, an operation confined to them keeps among listeners that are
confined to them**, however deep the reactions nest. -/
theorem perform (hP : ∀ p c, Q c → P p → P (p.after c)) (hop : op.Confined Q)
    (h : s.Confined Q ∧ P s.progress) :
    (perform op s).Confined Q ∧ P (perform op s).progress := by
  have hwithin := performWithin_induction
    (P := fun op s t => op.Confined Q → s.Confined Q ∧ P s.progress → t.Confined Q ∧ P t.progress)
    (fun _ _ _ h => h) (fun _ hreact _ _ hop h => step hP hreact hop h)
  exact hwithin _ op s hop h

/-- **Among confined listeners a change leaves what it is by itself**, as far as changes of their
kind keep that. -/
theorem perform_change (hP : ∀ p c, Q c → P p → P (p.after c)) (h : s.Confined Q)
    {c : Progress.Change} (hc : P (s.progress.after c)) :
    (State.perform (.change c) s).Confined Q ∧ P (State.perform (.change c) s).progress := by
  rw [perform_eq_step]
  exact update (fun _ _ => perform hP) h hc

end Confined

end State

namespace Logbook

variable {b : Logbook} {P : Progress → Prop}

/-- A confined operation keeps what changes of the kind keep. -/
theorem confined_perform (hP : ∀ p c, Q c → P p → P (p.after c)) {op : Operation}
    (hop : op.Confined Q) (h : b.state.Confined Q) (hb : P b.state.progress) :
    (b.perform op).state.Confined Q ∧ P (b.perform op).state.progress :=
  State.Confined.perform (s := { b.state with notices := [] }) hP hop ⟨h, hb⟩

/-- Among confined listeners a change leaves what it is by itself, as far as changes of their kind
keep that. -/
theorem confined_change (hP : ∀ p c, Q c → P p → P (p.after c)) (h : b.state.Confined Q)
    {c : Progress.Change} (hc : P (b.state.progress.after c)) :
    (b.change c).state.Confined Q ∧ P (b.change c).state.progress :=
  State.Confined.perform_change (s := { b.state with notices := [] }) hP h hc

/-- Among confined listeners calls in a row keep what their changes keep by themselves, as far as
changes of the kind keep that. -/
theorem confined_make (hP : ∀ p c, Q c → P p → P (p.after c)) (h : b.state.Confined Q)
    (hb : P b.state.progress) {calls : List Call}
    (hcalls : ∀ c, .change c ∈ calls → ∀ p, P p → P (p.after c)) :
    (b.make calls).state.Confined Q ∧ P (b.make calls).state.progress := by
  induction calls generalizing b with
  | nil => exact ⟨h, hb⟩
  | cons c calls ih =>
    have hlater : ∀ c, .change c ∈ calls → ∀ p, P p → P (p.after c) :=
      fun c hc => hcalls c (List.mem_cons_of_mem _ hc)
    cases c with
    | change c =>
      obtain ⟨hchange, hprogress⟩ := confined_change hP h (hcalls c List.mem_cons_self _ hb)
      exact ih hchange hprogress hlater
    | _ => exact ih h hb hlater

/-- Among confined listeners a logbook that was continued keeps what its changes keep by themselves,
as far as changes of the kind keep that. -/
theorem Extends.confined {p : Call → Bool} {b b' : Logbook} (h : Extends p b b')
    (hP : ∀ q c, Q c → P q → P (q.after c))
    (hcalls : ∀ c, p (.change c) = true → ∀ q, P q → P (q.after c)) (hb : b.state.Confined Q)
    (hprogress : P b.state.progress) : b'.state.Confined Q ∧ P b'.state.progress := by
  induction h with
  | refl => exact ⟨hb, hprogress⟩
  | call _ _ _ ih => exact ih
  | change _ hc ih => exact confined_change hP ih.1 (hcalls _ hc _ ih.2)

end Logbook

end ExecutionNode.Sync
