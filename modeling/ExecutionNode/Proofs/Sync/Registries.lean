import ExecutionNode.Proofs.Sync.Nesting

/-!
# The registries of listeners

Both kinds of listeners draw their numbers from one series, and each kind has a registry of its
own.  However deep reactions nest, the registries stay in order (`Enrolled.perform`): each is
ascending, no number is in both, and no number is in use that was not given.

The numbers that operations give are therefore ascending too (`pairwise_issued`), and an operation
that ends a subscription which does not exist does nothing
(`perform_unsubscribeStatus_of_not_hears` and its twin).

Facts about operations are proved in two steps.  `Keeps` carries a property through a notice and
whatever its listener does; `performWithin_induction`, or `performWithin_induction_of_grown` where
the order of the registries is needed, says that what a step has if the reactions inside it have
it, every operation has.
-/

namespace ExecutionNode.Sync

namespace State

variable {s : State} {react : Operation → State → State} {op : Operation}

/-! ### Operations in order -/

/-- The state after operations in order. -/
def performAll (s : State) (ops : List Operation) : State := ops.foldl (fun s op => perform op s) s

@[simp] theorem performAll_nil (s : State) : s.performAll [] = s := rfl

@[simp] theorem performAll_cons (s : State) (op : Operation) (ops : List Operation) :
    s.performAll (op :: ops) = (perform op s).performAll ops := rfl

theorem performAll_append (s : State) (earlier later : List Operation) :
    s.performAll (earlier ++ later) = (s.performAll earlier).performAll later :=
  List.foldl_append

/-- What every single operation keeps, operations in order keep. -/
theorem performAll_induction {P : State → Prop} {ops : List Operation} (h : P s)
    (hop : ∀ t, P t → ∀ op ∈ ops, P (perform op t)) : P (s.performAll ops) :=
  List.foldlRecOn ops _ h hop

/-- What every step keeps if the reactions keep it, every operation keeps. -/
theorem performWithin_induction {P : Operation → State → State → Prop}
    (hnone : ∀ op s, P op s s)
    (hstep : ∀ react, (∀ op s, P op s (react op s)) → ∀ op s, P op s (step react op s))
    (depth : Nat) (op : Operation) (s : State) : P op s (performWithin depth op s) := by
  induction depth generalizing op s with
  | zero => exact hstep _ hnone op s
  | succ depth ih => exact hstep _ ih op s

/-! ### Notices -/

/-- Whatever listeners do inside a notice keeps a property. -/
structure Keeps (react : Operation → State → State) (P : State → Prop) : Prop where
  /-- It does not matter which reactions are still to come. -/
  pop : ∀ {t : State} {id : Nat} {name : String} {ops : List Operation}
    {rest : List (List Operation)}, P t → t.listeners[id]? = some ⟨name, ops :: rest⟩ →
      P { t with listeners := t.listeners.set id ⟨name, rest⟩ }
  /-- The reactions keep it. -/
  react : ∀ {t : State} {id : Nat} {name : String} {ops : List Operation}
    {rest : List (List Operation)}, P t → t.listeners[id]? = some ⟨name, ops :: rest⟩ →
      ∀ op ∈ ops, ∀ u, P u → P (react op u)

namespace Keeps

variable {P : State → Prop} {α : Type} {notice : α → Notice} {xs : List α}

/-- Two properties are kept together. -/
theorem and {Q : State → Prop} (h : Keeps react P) (h' : Keeps react Q) :
    Keeps react fun t => P t ∧ Q t where
  pop ht hlistener := ⟨h.pop ht.1 hlistener, h'.pop ht.2 hlistener⟩
  react ht hlistener op hop u hu :=
    ⟨h.react ht.1 hlistener op hop u hu.1, h'.react ht.2 hlistener op hop u hu.2⟩

/-- A property that a notice alone has kept is kept by what its listener does. -/
theorem deliver (h : Keeps react P) {n : Notice} (hn : P { s with notices := s.notices ++ [n] }) :
    P (s.deliver react n) := by
  unfold State.deliver
  dsimp only
  split
  next name ops rest hlistener =>
    refine List.foldlRecOn ops _ (h.pop hn hlistener) ?_
    intro t ht op hop
    exact h.react hn hlistener op hop t ht
  next => exact hn

/-- Notices in a row keep a property if each of them does. -/
theorem foldl_deliver (h : Keeps react P)
    (hnotice : ∀ x ∈ xs, ∀ t, P t → P { t with notices := t.notices ++ [notice x] }) (hs : P s) :
    P (xs.foldl (fun s x => s.deliver react (notice x)) s) :=
  List.foldlRecOn xs _ hs fun t ht x hx => h.deliver (hnotice x hx t ht)

end Keeps

/-! ### The registries -/

/-- The registries are in order. -/
structure Enrolled (s : State) : Prop where
  /-- Who subscribed to the status earlier comes first. -/
  statusAscending : s.statusSubscriptions.Pairwise (· < ·)
  /-- Who subscribed to being in sync earlier comes first. -/
  inSyncAscending : s.inSyncSubscriptions.Pairwise (·.id < ·.id)
  /-- The numbers in the one registry were given. -/
  statusIssued : ∀ id ∈ s.statusSubscriptions, id < s.listeners.length
  /-- The numbers in the other registry were given. -/
  inSyncIssued : ∀ sub ∈ s.inSyncSubscriptions, sub.id < s.listeners.length
  /-- No number is in both registries. -/
  apart : ∀ sub ∈ s.inSyncSubscriptions, sub.id ∉ s.statusSubscriptions
  /-- Whoever was told something has a number that was given. -/
  noticed : ∀ n ∈ s.notices, n.listener < s.listeners.length

/-- What operations do to the registries: they stay in order, and whoever has a number keeps it,
but enters no registry again. -/
structure Grown (s t : State) : Prop where
  /-- The registries are in order. -/
  enrolled : t.Enrolled
  /-- No number was taken back. -/
  length_le : s.listeners.length ≤ t.listeners.length
  /-- Of the old numbers only those hear the status that heard it before. -/
  status : ∀ id ∈ t.statusSubscriptions, id < s.listeners.length → id ∈ s.statusSubscriptions
  /-- Of the old numbers only those hear of being in sync that heard of it before. -/
  inSync : ∀ sub ∈ t.inSyncSubscriptions, sub.id < s.listeners.length →
    ∃ old ∈ s.inSyncSubscriptions, old.id = sub.id ∧ old.tolerance = sub.tolerance
  /-- The tolerance is settled once. -/
  tolerance : t.tolerance = s.tolerance

namespace Grown

variable {t u : State}

theorem issued (h : s.Grown t) {id : Nat} (hid : id < s.listeners.length) :
    id < t.listeners.length :=
  Nat.lt_of_lt_of_le hid h.length_le

theorem trans (h : s.Grown t) (h' : t.Grown u) : s.Grown u := by
  refine ⟨h'.enrolled, Nat.le_trans h.length_le h'.length_le, ?_, ?_, ?_⟩
  · intro id hid hold
    exact h.status id (h'.status id hid (h.issued hold)) hold
  · intro sub hsub hold
    obtain ⟨mid, hmid, hsame, htolerance⟩ := h'.inSync sub hsub (h.issued hold)
    obtain ⟨old, hmem, hid, hsettled⟩ := h.inSync mid hmid (hsame ▸ hold)
    exact ⟨old, hmem, hid.trans hsame, hsettled.trans htolerance⟩
  · exact h'.tolerance.trans h.tolerance

/-- Who hears of being in sync never hears the status. -/
theorem not_mem_status (h : s.Grown t) (henrolled : s.Enrolled) {sub : InSyncSubscription}
    (hsub : sub ∈ s.inSyncSubscriptions) : sub.id ∉ t.statusSubscriptions := by
  intro hid
  exact henrolled.apart sub hsub (h.status sub.id hid (henrolled.inSyncIssued sub hsub))

end Grown

namespace Enrolled

theorem initial (tolerance : UInt64) : (State.initial tolerance).Enrolled where
  statusAscending := .nil
  inSyncAscending := .nil
  statusIssued _ h := absurd h List.not_mem_nil
  inSyncIssued _ h := absurd h List.not_mem_nil
  apart _ h := absurd h List.not_mem_nil
  noticed _ h := absurd h List.not_mem_nil

theorem grown_self (h : s.Enrolled) : s.Grown s :=
  ⟨h, Nat.le_refl _, fun _ hid _ => hid, fun sub hsub _ => ⟨sub, hsub, rfl, rfl⟩, rfl⟩

/-- Notices to numbers that were given leave the registries as they are. -/
theorem notices (h : s.Enrolled) {ns : List Notice}
    (hns : ∀ n ∈ ns, n.listener < s.listeners.length) :
    s.Grown { s with notices := s.notices ++ ns } :=
  { h.grown_self with
    enrolled := { h with noticed := List.forall_mem_append.mpr ⟨h.noticed, hns⟩ } }

/-- A notice to a number that was given leaves the registries as they are. -/
theorem notice (h : s.Enrolled) {n : Notice} (hn : n.listener < s.listeners.length) :
    s.Grown { s with notices := s.notices ++ [n] } :=
  h.notices (List.forall_mem_singleton.mpr hn)

/-- Which reactions are to come does not matter for the registries. -/
theorem pop (h : s.Enrolled) (id : Nat) (l : Listener) :
    s.Grown { s with listeners := s.listeners.set id l } := by
  have hlength : (s.listeners.set id l).length = s.listeners.length := List.length_set
  refine { h.grown_self with
    enrolled := ⟨h.statusAscending, h.inSyncAscending, ?_, ?_, h.apart, ?_⟩
    length_le := Nat.le_of_eq hlength.symm }
  all_goals rw [hlength]
  · exact h.statusIssued
  · exact h.inSyncIssued
  · exact h.noticed

/-- A new listener to the status comes last, under a number that nobody has. -/
theorem subscribeStatus (h : s.Enrolled) (name : String) (reactions : List (List Operation)) :
    s.Grown (step react (.subscribeStatus name reactions) s) := by
  unfold step
  refine ⟨⟨?_, h.inSyncAscending, ?_, ?_, ?_, ?_⟩, ?_, ?_, ?_, rfl⟩
  · rw [List.pairwise_append]
    refine ⟨h.statusAscending, List.pairwise_singleton .., ?_⟩
    intro a ha b hb
    rw [List.mem_singleton.mp hb]
    exact h.statusIssued a ha
  · intro id hid
    rw [List.length_append, List.length_singleton]
    rcases List.mem_append.mp hid with hold | hnew
    · exact Nat.lt_succ_of_lt (h.statusIssued id hold)
    · rw [List.mem_singleton.mp hnew]
      exact Nat.lt_succ_self _
  · intro sub hsub
    rw [List.length_append]
    exact Nat.lt_add_right _ (h.inSyncIssued sub hsub)
  · intro sub hsub
    rw [List.mem_append, List.mem_singleton, not_or]
    exact ⟨h.apart sub hsub, Nat.ne_of_lt (h.inSyncIssued sub hsub)⟩
  · intro n hn
    rw [List.length_append]
    exact Nat.lt_add_right _ (h.noticed n hn)
  · rw [List.length_append]
    exact Nat.le_add_right _ _
  · intro id hid hissued
    rcases List.mem_append.mp hid with hold | hnew
    · exact hold
    · exact absurd (List.mem_singleton.mp hnew) (Nat.ne_of_lt hissued)
  · exact h.grown_self.inSync

/-- A new listener to being in sync comes last, under a number that nobody has. -/
theorem subscribeInSync (h : s.Enrolled) (name : String) (tolerance : Option UInt64)
    (reactions : List (List Operation)) :
    s.Grown (step react (.subscribeInSync name tolerance reactions) s) := by
  unfold step
  refine ⟨⟨h.statusAscending, ?_, ?_, ?_, ?_, ?_⟩, ?_, h.grown_self.status, ?_, rfl⟩
  · rw [List.pairwise_append]
    refine ⟨h.inSyncAscending, List.pairwise_singleton .., ?_⟩
    intro a ha b hb
    rw [List.mem_singleton.mp hb]
    exact h.inSyncIssued a ha
  · intro id hid
    rw [List.length_append]
    exact Nat.lt_add_right _ (h.statusIssued id hid)
  · intro sub hsub
    rw [List.length_append, List.length_singleton]
    rcases List.mem_append.mp hsub with hold | hnew
    · exact Nat.lt_succ_of_lt (h.inSyncIssued sub hold)
    · rw [List.mem_singleton.mp hnew]
      exact Nat.lt_succ_self _
  · intro sub hsub
    rcases List.mem_append.mp hsub with hold | hnew
    · exact h.apart sub hold
    · rw [List.mem_singleton.mp hnew]
      exact fun hid => absurd (h.statusIssued _ hid) (Nat.lt_irrefl _)
  · intro n hn
    rw [List.length_append]
    exact Nat.lt_add_right _ (h.noticed n hn)
  · rw [List.length_append]
    exact Nat.le_add_right _ _
  · intro sub hsub hissued
    rcases List.mem_append.mp hsub with hold | hnew
    · exact ⟨sub, hold, rfl, rfl⟩
    · rw [List.mem_singleton.mp hnew] at hissued
      exact absurd hissued (Nat.lt_irrefl _)

/-- A listener to the status may leave. -/
theorem unsubscribeStatus (h : s.Enrolled) (id : Nat) :
    s.Grown (step react (.unsubscribeStatus id) s) :=
  { h.grown_self with
    enrolled := { h with
      statusAscending := h.statusAscending.filter _
      statusIssued := fun id' hid => h.statusIssued id' (List.mem_of_mem_filter hid)
      apart := fun sub hsub hid => h.apart sub hsub (List.mem_of_mem_filter hid) }
    status := fun _ hid _ => List.mem_of_mem_filter hid }

/-- A listener to being in sync may leave. -/
theorem unsubscribeInSync (h : s.Enrolled) (id : Nat) :
    s.Grown (step react (.unsubscribeInSync id) s) :=
  { h.grown_self with
    enrolled := { h with
      inSyncAscending := h.inSyncAscending.filter _
      inSyncIssued := fun sub hsub => h.inSyncIssued sub (List.mem_of_mem_filter hsub)
      apart := fun sub hsub => h.apart sub (List.mem_of_mem_filter hsub) }
    inSync := fun sub hsub _ => ⟨sub, List.mem_of_mem_filter hsub, rfl, rfl⟩ }

/-- A new progress does not touch the registries. -/
theorem changed (h : s.Enrolled) (p : Progress) :
    s.Grown { s with progress := p, measured := true } :=
  { h.grown_self with enrolled := { h with } }

/-- To correct the flags does not touch the registries otherwise. -/
theorem corrected (h : s.Enrolled) (p : Progress) :
    s.Grown { s with
      inSyncSubscriptions := s.inSyncSubscriptions.map fun sub =>
        { sub with inSync := p.inSync sub.tolerance } } := by
  refine { h.grown_self with
    enrolled := { h with inSyncAscending := ?_, inSyncIssued := ?_, apart := ?_ }, inSync := ?_ }
  · exact List.pairwise_map.mpr h.inSyncAscending
  · exact List.forall_mem_map.mpr h.inSyncIssued
  · exact List.forall_mem_map.mpr h.apart
  · exact List.forall_mem_map.mpr fun sub hsub _ => ⟨sub, hsub, rfl, rfl⟩

section update

variable (hreact : ∀ (op : Operation) (t : State), t.Enrolled → t.Grown (react op t))

include hreact

/-- Whatever listeners do leaves the registries in order. -/
theorem keeps (s : State) : Keeps react s.Grown where
  pop ht _ := ht.trans (ht.enrolled.pop _ _)
  react _ _ op _ u hu := hu.trans (hreact op u hu.enrolled)

/-- Notices in a row leave the registries in order. -/
theorem foldl_deliver {α : Type} (h : s.Enrolled) (notice : α → Notice) {xs : List α}
    (hxs : ∀ x ∈ xs, (notice x).listener < s.listeners.length) :
    s.Grown (xs.foldl (fun s x => s.deliver react (notice x)) s) := by
  refine (keeps hreact s).foldl_deliver ?_ h.grown_self
  intro x hx t ht
  exact ht.trans (ht.enrolled.notice (ht.issued (hxs x hx)))

/-- To tell who is in sync leaves the registries in order. -/
theorem deliverInSync (h : s.Enrolled) (p : Progress) : s.Grown (s.deliverInSync react p) := by
  unfold State.deliverInSync
  refine (h.corrected p).trans ((h.corrected p).enrolled.foldl_deliver hreact
    (fun sub : InSyncSubscription => ⟨sub.id, .inSync (p.inSync sub.tolerance)⟩) ?_)
  intro sub hsub
  exact h.inSyncIssued sub (List.mem_of_mem_filter hsub)

/-- An update leaves the registries in order. -/
theorem update (h : s.Enrolled) (c : Progress.Change) : s.Grown (s.update react c) := by
  have hchanged := h.changed (s.progress.after c)
  unfold State.update
  dsimp only
  split
  · exact hchanged.trans (hchanged.enrolled.deliverInSync hreact _)
  · have htold := hchanged.enrolled.foldl_deliver hreact
      (fun id => ⟨id, .status ((s.progress.after c).status s.tolerance)⟩) h.statusIssued
    exact (hchanged.trans htold).trans (htold.enrolled.deliverInSync hreact _)

/-- A step leaves the registries in order if the reactions do. -/
theorem step (h : s.Enrolled) (op : Operation) : s.Grown (step react op s) := by
  cases op with
  | change c => exact h.update hreact c
  | subscribeStatus name reactions => exact h.subscribeStatus name reactions
  | subscribeInSync name tolerance reactions => exact h.subscribeInSync name tolerance reactions
  | unsubscribeStatus id => exact h.unsubscribeStatus id
  | unsubscribeInSync id => exact h.unsubscribeInSync id

end update

/-- **An operation leaves the registries in order**, however deep the reactions nest. -/
theorem performWithin (h : s.Enrolled) (depth : Nat) (op : Operation) :
    s.Grown (performWithin depth op s) := by
  refine performWithin_induction (P := fun _ s t => s.Enrolled → s.Grown t) ?_ ?_ depth op s h
  · intro _ s h
    exact h.grown_self
  · intro react hreact op s h
    exact h.step hreact op

theorem perform (h : s.Enrolled) (op : Operation) : s.Grown (perform op s) :=
  h.performWithin _ op

theorem performAll (h : s.Enrolled) (ops : List Operation) : s.Grown (s.performAll ops) :=
  performAll_induction (P := s.Grown) h.grown_self fun _ ht op _ =>
    ht.trans (ht.enrolled.perform op)

end Enrolled

/-- What every step has if the reactions have it and leave the registries in order, every operation
has. -/
theorem performWithin_induction_of_grown {P : Operation → State → State → Prop}
    (hnone : ∀ op s, P op s s)
    (hstep : ∀ react, (∀ (op : Operation) (t : State), t.Enrolled → t.Grown (react op t)) →
      (∀ op s, P op s (react op s)) → ∀ op s, P op s (step react op s))
    (depth : Nat) (op : Operation) (s : State) : P op s (performWithin depth op s) := by
  have hboth := performWithin_induction
    (P := fun op s t => (s.Enrolled → s.Grown t) ∧ P op s t)
    (fun op s => ⟨Enrolled.grown_self, hnone op s⟩)
    (fun react hreact op s => ⟨fun h => h.step (fun op t => (hreact op t).1) op,
      hstep react (fun op t => (hreact op t).1) (fun op s => (hreact op s).2) op s⟩)
    depth op s
  exact hboth.2

/-! ### Operations other than changes -/

theorem perform_subscribeStatus (s : State) (name : String) (reactions : List (List Operation)) :
    perform (.subscribeStatus name reactions) s =
      { s with
        listeners := s.listeners ++ [⟨name, reactions⟩]
        statusSubscriptions := s.statusSubscriptions ++ [s.listeners.length] } :=
  perform_eq_step ..

theorem perform_subscribeInSync (s : State) (name : String) (tolerance : Option UInt64)
    (reactions : List (List Operation)) :
    perform (.subscribeInSync name tolerance reactions) s =
      { s with
        listeners := s.listeners ++ [⟨name, reactions⟩]
        inSyncSubscriptions := s.inSyncSubscriptions
          ++ [⟨s.listeners.length, tolerance.getD s.tolerance,
            s.progress.inSync (tolerance.getD s.tolerance)⟩] } :=
  perform_eq_step ..

theorem perform_unsubscribeStatus (s : State) (id : Nat) :
    perform (.unsubscribeStatus id) s =
      { s with statusSubscriptions := s.statusSubscriptions.filter (· ≠ id) } :=
  perform_eq_step ..

theorem perform_unsubscribeInSync (s : State) (id : Nat) :
    perform (.unsubscribeInSync id) s =
      { s with inSyncSubscriptions := s.inSyncSubscriptions.filter (·.id ≠ id) } :=
  perform_eq_step ..

/-- The number that an operation gives to a listener. -/
def issued? (s : State) (op : Operation) : Option Nat :=
  match s.receipt op with
  | .subscribed id => some id
  | _ => none

/-- The numbers that operations give to listeners, in order. -/
def issued (s : State) : List Operation → List Nat
  | [] => []
  | op :: ops => (s.issued? op).toList ++ (perform op s).issued ops

/-- A number that is given is the next one, and used up. -/
theorem eq_length_of_issued? {id : Nat} (h : id ∈ s.issued? op) :
    id = s.listeners.length ∧ id < (perform op s).listeners.length := by
  cases op with
  | subscribeStatus name reactions =>
    obtain rfl := Option.some.inj h
    simp [perform_subscribeStatus]
  | subscribeInSync name tolerance reactions =>
    obtain rfl := Option.some.inj h
    simp [perform_subscribeInSync]
  | _ => cases h

/-- Numbers that will be given are not in use. -/
theorem le_of_mem_issued {ops : List Operation} (h : s.Enrolled) {id : Nat}
    (hid : id ∈ s.issued ops) : s.listeners.length ≤ id := by
  induction ops generalizing s with
  | nil => cases hid
  | cons op ops ih =>
    have hgrown := h.perform op
    rcases List.mem_append.mp hid with hnow | hlater
    · exact Nat.le_of_eq (eq_length_of_issued? (Option.mem_toList.mp hnow)).1.symm
    · exact Nat.le_trans hgrown.length_le (ih hgrown.enrolled hlater)

/-- **No number is given twice**: each is larger than those before. -/
theorem pairwise_issued (h : s.Enrolled) (ops : List Operation) :
    (s.issued ops).Pairwise (· < ·) := by
  induction ops generalizing s with
  | nil => exact .nil
  | cons op ops ih =>
    have hgrown := h.perform op
    refine List.pairwise_append.mpr ⟨?_, ih hgrown.enrolled, ?_⟩
    · cases s.issued? op with
      | none => exact .nil
      | some id => exact List.pairwise_singleton ..
    · intro a ha b hb
      exact Nat.lt_of_lt_of_le (eq_length_of_issued? (Option.mem_toList.mp ha)).2
        (le_of_mem_issued hgrown.enrolled hb)

@[simp] theorem hearsStatus_iff {id : Nat} : s.hearsStatus id = true ↔ id ∈ s.statusSubscriptions :=
  List.contains_iff_mem

@[simp] theorem hearsInSync_iff {id : Nat} :
    s.hearsInSync id = true ↔ ∃ sub ∈ s.inSyncSubscriptions, sub.id = id := by
  simp [hearsInSync]

theorem receipt_unsubscribeStatus_iff {id : Nat} {found : Bool} :
    s.receipt (.unsubscribeStatus id) = .ended found ↔ s.hearsStatus id = found :=
  Operation.Receipt.ended.injEq .. ▸ Iff.rfl

theorem receipt_unsubscribeInSync_iff {id : Nat} {found : Bool} :
    s.receipt (.unsubscribeInSync id) = .ended found ↔ s.hearsInSync id = found :=
  Operation.Receipt.ended.injEq .. ▸ Iff.rfl

/-- To end a subscription to the status that does not exist does nothing. -/
theorem perform_unsubscribeStatus_of_not_hears {id : Nat} (h : s.hearsStatus id = false) :
    perform (.unsubscribeStatus id) s = s := by
  have hsame : s.statusSubscriptions.filter (· ≠ id) = s.statusSubscriptions := by
    rw [List.filter_eq_self]
    intro other hother
    have hne : other ≠ id := by
      rintro rfl
      rw [hearsStatus_iff.mpr hother] at h
      cases h
    exact decide_eq_true hne
  rw [perform_unsubscribeStatus, hsame]

/-- To end a subscription to being in sync that does not exist does nothing. -/
theorem perform_unsubscribeInSync_of_not_hears {id : Nat} (h : s.hearsInSync id = false) :
    perform (.unsubscribeInSync id) s = s := by
  have hsame : s.inSyncSubscriptions.filter (·.id ≠ id) = s.inSyncSubscriptions := by
    rw [List.filter_eq_self]
    intro sub hsub
    have hne : sub.id ≠ id := by
      intro heq
      rw [hearsInSync_iff.mpr ⟨sub, hsub, heq⟩] at h
      cases h
    exact decide_eq_true hne
  rw [perform_unsubscribeInSync, hsame]

/-- Who hears of being in sync does not hear the status. -/
theorem Enrolled.hearsStatus_eq_false (h : s.Enrolled) {id : Nat} (hid : s.hearsInSync id = true) :
    s.hearsStatus id = false := by
  obtain ⟨sub, hsub, rfl⟩ := hearsInSync_iff.mp hid
  exact Bool.eq_false_iff.mpr fun hears => h.apart sub hsub (hearsStatus_iff.mp hears)

end State

end ExecutionNode.Sync
