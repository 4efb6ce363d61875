import ExecutionNode.Proofs.Sync.Confined

/-!
# That the download is over, once it is said

Whoever says that the download is over for good has that noted in the sync state at once, and then
listeners may hear of it and act.  Two changes take the mark back: to start over, and to say that
the download is not over.  A listener that makes neither is abiding, whatever else it does.  The
sync state is meant to be written by the synchronizer alone and read by everyone else, and listeners
that only read are abiding (`Quiet.abiding`).

* `State.abiding_iff`: to be abiding is to be confined to the other changes.
* `Logbook.Extends.terminal_of_told`: so the mark stands after all calls that came in addition, if
  one of them set it and none takes it back.
-/

namespace ExecutionNode.Sync

/-- A change does not take back that the download is over. -/
def Progress.Change.Abiding : Progress.Change → Prop
  | .restart => False
  | .terminal reached => reached = true
  | _ => True

/-- Only two changes take back that the download is over. -/
theorem Progress.Change.abiding_of_ne {c : Progress.Change} (hrestart : c ≠ .restart)
    (hterminal : c ≠ .terminal false) : c.Abiding := by
  cases c with
  | restart => exact hrestart rfl
  | terminal reached =>
    cases reached with
    | true => rfl
    | false => exact absurd rfl hterminal
  | _ => trivial

/-- Neither an operation nor a reaction that it brings along takes back that the download is
over. -/
inductive Operation.Abiding : Operation → Prop where
  | change {c : Progress.Change} (hc : c.Abiding) : Abiding (.change c)
  | subscribeStatus (name : String) {reactions : List (List Operation)}
      (h : ∀ ops ∈ reactions, ∀ op ∈ ops, Abiding op) : Abiding (.subscribeStatus name reactions)
  | subscribeInSync (name : String) (tolerance : Option UInt64) {reactions : List (List Operation)}
      (h : ∀ ops ∈ reactions, ∀ op ∈ ops, Abiding op) :
      Abiding (.subscribeInSync name tolerance reactions)
  | unsubscribeStatus (id : Nat) : Abiding (.unsubscribeStatus id)
  | unsubscribeInSync (id : Nat) : Abiding (.unsubscribeInSync id)

/-- A change that is abiding leaves the mark. -/
theorem Progress.terminal_after {p : Progress} (h : p.terminal = some true) {c : Progress.Change}
    (hc : c.Abiding) : (p.after c).terminal = some true := by
  cases c with
  | restart => exact hc.elim
  | terminal reached => exact congrArg some hc
  | _ => exact h

/-- To be abiding is to be confined to abiding changes. -/
theorem Operation.abiding_iff {op : Operation} :
    op.Abiding ↔ op.Confined Progress.Change.Abiding := by
  constructor
  · intro h
    induction h with
    | change hc => exact .change hc
    | subscribeStatus name _ ih => exact .subscribeStatus name ih
    | subscribeInSync name tolerance _ ih => exact .subscribeInSync name tolerance ih
    | unsubscribeStatus id => exact .unsubscribeStatus id
    | unsubscribeInSync id => exact .unsubscribeInSync id
  · intro h
    induction h with
    | change hc => exact .change hc
    | subscribeStatus name _ ih => exact .subscribeStatus name ih
    | subscribeInSync name tolerance _ ih => exact .subscribeInSync name tolerance ih
    | unsubscribeStatus id => exact .unsubscribeStatus id
    | unsubscribeInSync id => exact .unsubscribeInSync id

namespace State

variable {s : State}

/-- No listener takes back, from inside a notice, that the download is over. -/
def Abiding (s : State) : Prop := ∀ l ∈ s.listeners, ∀ ops ∈ l.reactions, ∀ op ∈ ops, op.Abiding

/-- Abiding listeners are confined to abiding changes. -/
theorem abiding_iff : s.Abiding ↔ s.Confined Progress.Change.Abiding := by
  unfold Abiding Confined
  simp only [Operation.abiding_iff]

/-- Listeners that do nothing are abiding. -/
theorem Quiet.abiding (h : s.Quiet) : s.Abiding := abiding_iff.mpr (h.confined _)

end State

namespace Logbook

variable {p : Call → Bool} {b b' : Logbook}

/-- **The mark stands** after all calls that came in addition, if one of them set it, none takes it
back, and no listener does. -/
theorem Extends.terminal_of_told (h : Extends p b b') (hrestart : p (.change .restart) = false)
    (habiding : b.state.Abiding) {new : List Call} (hcalls : b'.calls = b.calls ++ new)
    (hkept : .change (.terminal false) ∉ new) :
    b'.state.Abiding ∧
      (.change (.terminal true) ∈ new → b'.state.progress.terminal = some true) := by
  have hterminal : ∀ (q : Progress) (c : Progress.Change), c.Abiding → q.terminal = some true →
      (q.after c).terminal = some true := fun _ _ hc hq => Progress.terminal_after hq hc
  rw [State.abiding_iff] at habiding ⊢
  induction h generalizing new with
  | refl =>
    obtain rfl : new = [] := List.append_right_eq_self.mp hcalls.symm
    exact ⟨habiding, nofun⟩
  | @call b' h' c _ hchange ih =>
    obtain ⟨old, hold, -⟩ := h'.exists_new
    obtain rfl : new = old ++ [c] := by
      refine List.append_cancel_left (hcalls.symm.trans ?_)
      rw [← List.append_assoc, ← hold]
      rfl
    rw [List.mem_append, not_or] at hkept
    obtain ⟨hquiet, htold⟩ := ih hold hkept.1
    refine ⟨hquiet, fun hmem => htold ?_⟩
    rcases List.mem_append.mp hmem with hearlier | hlast
    · exact hearlier
    · obtain rfl := List.mem_singleton.mp hlast
      cases hchange
  | @change b' h' c hc ih =>
    obtain ⟨old, hold, -⟩ := h'.exists_new
    obtain ⟨notices, hchange⟩ := b'.calls_change c
    obtain rfl : new = old ++ .change c :: notices.map .notify := by
      refine List.append_cancel_left (hcalls.symm.trans ?_)
      rw [hchange, hold, List.append_assoc]
    simp only [List.mem_append, List.mem_cons, List.mem_map, not_or] at hkept
    obtain ⟨hquiet, htold⟩ := ih hold hkept.1
    have hcAbiding : c.Abiding := by
      refine Progress.Change.abiding_of_ne (fun heq => ?_) fun heq => hkept.2.1 (heq ▸ rfl)
      rw [heq, hrestart] at hc
      cases hc
    have hstill : (b'.change c).state.Confined Progress.Change.Abiding :=
      (confined_change (P := fun _ => True) (fun _ _ _ _ => trivial) hquiet trivial).1
    refine ⟨hstill, fun hmem => ?_⟩
    rcases List.mem_append.mp hmem with hearlier | hlast
    · exact (confined_change hterminal hquiet (hterminal _ _ hcAbiding (htold hearlier))).2
    · rcases List.mem_cons.mp hlast with heq | hnotice
      · obtain rfl := Call.change.inj heq
        exact (confined_change hterminal hquiet rfl).2
      · obtain ⟨_, -, heq⟩ := List.mem_map.mp hnotice
        cases heq

end Logbook

end ExecutionNode.Sync
