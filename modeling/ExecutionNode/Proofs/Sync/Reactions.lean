import ExecutionNode.Proofs.Sync.Listeners

/-!
# What listeners know after others have reacted

A listener may change the sync state from inside a notice.  Everyone is told of that change at
once, and then the notices of the outer change go on, with the news of the moment at which they
were decided.  Who is told after a listener that reacted may therefore end up with old news, and
flags may be set to what held before (`reactions_leave_stale_news`).

Two invariants say when that cannot happen.

* `Informed`: if nobody who hears the status before a listener has anything left to do, then
  nothing that anybody else does leaves that listener behind.
* `Calm`, where no listener to the status reacts at all: every flag is right, and everyone who
  hears the status is up to date.  A listener to being in sync is then `Aware` of it if nobody who
  hears of it before has anything left to do.

Each is kept by a step if the reactions inside it keep it (`performWithin_induction_of_grown`), and
so by whole runs.  `last_news_current` puts them together.
-/

namespace ExecutionNode.Sync

/-- No listener to the status that an operation brings along, now or in a reaction to come, reacts
itself. -/
inductive Operation.Calm : Operation → Prop where
  | change (c : Progress.Change) : Calm (.change c)
  | subscribeStatus (name : String) : Calm (.subscribeStatus name [])
  | subscribeInSync (name : String) (tolerance : Option UInt64) (reactions : List (List Operation))
      (h : ∀ ops ∈ reactions, ∀ op ∈ ops, Calm op) :
      Calm (.subscribeInSync name tolerance reactions)
  | unsubscribeStatus (id : Nat) : Calm (.unsubscribeStatus id)
  | unsubscribeInSync (id : Nat) : Calm (.unsubscribeInSync id)

namespace State

variable {s t : State} {react : Operation → State → State} {op : Operation} {id : Nat}

/-! ### The last news -/

/-- If a listener was told anything, it was told this last. -/
def LastTold (s : State) (id : Nat) (news : News) : Prop :=
  ∀ told ∈ (s.toldTo id).getLast?, told = news

theorem LastTold.of_nil (h : s.toldTo id = []) (news : News) : s.LastTold id news := by
  intro told htold
  rw [h] at htold
  cases htold

/-- Who is told something was told it last. -/
theorem lastTold_concat (ns : List Notice) (id : Nat) (news : News) :
    LastTold { s with notices := s.notices ++ (ns ++ [⟨id, news⟩]) } id news := by
  intro told htold
  have hlast : newsFor id (s.notices ++ (ns ++ [⟨id, news⟩])) =
      newsFor id (s.notices ++ ns) ++ [news] := by
    simp [newsFor]
  unfold toldTo at htold
  rw [hlast, List.getLast?_concat] at htold
  exact (Option.some.inj htold).symm

/-- Notices to others do not matter. -/
theorem LastTold.append {news : News} (h : s.LastTold id news) {ns : List Notice}
    (hns : ∀ n ∈ ns, n.listener ≠ id) :
    LastTold { s with notices := s.notices ++ ns } id news := by
  have hsame : newsFor id (s.notices ++ ns) = newsFor id s.notices := by
    rw [newsFor_append, newsFor_eq_nil hns, List.append_nil]
  unfold LastTold toldTo
  rw [hsame]
  exact h

/-! ### Notices of which one is decisive -/

theorem Idle.of_pop {name : String} {ops : List Operation} {rest : List (List Operation)}
    {other : Nat} (h : s.Idle id) (hlistener : s.listeners[other]? = some ⟨name, ops :: rest⟩) :
    Idle { s with listeners := s.listeners.set other ⟨name, rest⟩ } id := by
  have hne : other ≠ id := by
    rintro rfl
    cases h _ hlistener
  unfold Idle
  dsimp only
  rw [List.getElem?_set_ne hne]
  exact h

/-- Who joins later does not make a listener act. -/
theorem Idle.of_append (h : s.Idle id) (hid : id < s.listeners.length) {ls : List Listener}
    (ht : t.listeners = s.listeners ++ ls) : t.Idle id := by
  unfold Idle
  rw [ht, List.getElem?_append_left hid]
  exact h

/-- Notices in the order of the numbers lead to what the one to a certain listener leads to, if
the listeners before have nothing left to do and those after do not matter. -/
theorem Keeps.foldl_deliver_of_reached {P : State → Prop} {α : Type} {notice : α → Notice}
    {xs : List α} (h : Keeps react P) (id : Nat)
    (hxs : xs.Pairwise fun x y => (notice x).listener < (notice y).listener)
    (hahead : ∀ x ∈ xs, (notice x).listener < id → s.Idle (notice x).listener)
    (hmissed : (∀ x ∈ xs, (notice x).listener ≠ id) → P s)
    (hreached : ∀ x ∈ xs, (notice x).listener = id → ∀ told : List Notice,
      (∀ n ∈ told ++ [notice x], n ∈ xs.map notice) →
      P { s with notices := s.notices ++ (told ++ [notice x]) })
    (hother : ∀ x ∈ xs, (notice x).listener ≠ id → ∀ t, P t →
      P { t with notices := t.notices ++ [notice x] }) :
    P (xs.foldl (fun s x => s.deliver react (notice x)) s) := by
  by_cases hnone : ∀ x ∈ xs, (notice x).listener ≠ id
  · exact h.foldl_deliver (fun x hx => hother x hx (hnone x hx)) (hmissed hnone)
  · push Not at hnone
    obtain ⟨x, hx, hid⟩ := hnone
    obtain ⟨earlier, later, rfl⟩ := List.append_of_mem hx
    obtain ⟨-, hafter, hbefore⟩ := List.pairwise_append.mp hxs
    have hidle : ∀ y ∈ earlier, s.Idle (notice y).listener := by
      intro y hy
      refine hahead y (List.mem_append_left _ hy) ?_
      rw [← hid]
      exact hbefore y hy x List.mem_cons_self
    -- those before only hear, so the property need not hold until `x` is told
    rw [List.foldl_append, foldl_deliver_of_idle notice hidle, List.foldl_cons]
    refine h.foldl_deliver ?_ (h.deliver ?_)
    · intro y hy t ht
      refine hother y (by simp [hy]) ?_ t ht
      rw [← hid]
      exact ((List.pairwise_cons.mp hafter).1 y hy).ne'
    · have htold := hreached x hx hid (earlier.map notice) fun n hn => by
        rw [List.append_cons, List.map_append, List.map_append]
        exact List.mem_append_left _ hn
      rw [← List.append_assoc] at htold
      exact htold

/-! ### Listeners to the status -/

/-- Nobody who hears the status before a listener has anything left to do, and the listener knows
the status. -/
structure Informed (id : Nat) (s : State) : Prop where
  /-- The registries are in order. -/
  enrolled : s.Enrolled
  /-- The number was given. -/
  issued : id < s.listeners.length
  /-- It is not that of a listener to being in sync. -/
  noInSync : ∀ sub ∈ s.inSyncSubscriptions, sub.id ≠ id
  /-- Those who are told before have nothing left to do. -/
  ahead : ∀ other ∈ s.statusSubscriptions, other < id → s.Idle other
  /-- What the listener was told last is the status. -/
  current : id ∈ s.statusSubscriptions → s.LastTold id (.status s.status)

namespace Informed

/-- Only those before, and the last news, can make a difference. -/
theorem of_grown (h : s.Informed id) (hgrown : s.Grown t)
    (hahead : ∀ other ∈ t.statusSubscriptions, other < id → t.Idle other)
    (hcurrent : id ∈ t.statusSubscriptions → t.LastTold id (.status t.status)) :
    t.Informed id := by
  refine ⟨hgrown.enrolled, hgrown.issued h.issued, ?_, hahead, hcurrent⟩
  intro sub hsub hid
  obtain ⟨old, hold, hsame, -⟩ := hgrown.inSync sub hsub (hid ▸ h.issued)
  exact h.noInSync old hold (hsame.trans hid)

/-- A notice to another listener does not matter. -/
theorem notice (h : s.Informed id) {n : Notice} (hissued : n.listener < s.listeners.length)
    (hne : n.listener ≠ id) : Informed id { s with notices := s.notices ++ [n] } :=
  h.of_grown (h.enrolled.notice hissued) h.ahead fun hid =>
    (h.current hid).append (List.forall_mem_singleton.mpr hne)

section update

variable (hgrown : ∀ (op : Operation) (t : State), t.Enrolled → t.Grown (react op t))
  (hreact : ∀ op t, t.Informed id → (react op t).Informed id)

include hgrown hreact

theorem keeps (s : State) : Keeps react fun t => s.Grown t ∧ t.Informed id := by
  refine (Enrolled.keeps hgrown s).and ⟨?_, fun _ _ op _ u => hreact op u⟩
  intro t other name ops rest ht hlistener
  exact ht.of_grown (ht.enrolled.pop _ _)
    (fun before hbefore hlt => (ht.ahead before hbefore hlt).of_pop hlistener) ht.current

/-- Notices to others, and what these do, do not matter. -/
theorem foldl_deliver (h : s.Informed id) {α : Type} (notice : α → Notice) {xs : List α}
    (hissued : ∀ x ∈ xs, (notice x).listener < s.listeners.length)
    (hne : ∀ x ∈ xs, (notice x).listener ≠ id) :
    Informed id (xs.foldl (fun s x => s.deliver react (notice x)) s) := by
  refine ((keeps hgrown hreact s).foldl_deliver ?_ ⟨h.enrolled.grown_self, h⟩).2
  rintro x hx t ⟨hst, ht⟩
  have hlt := hst.issued (hissued x hx)
  exact ⟨hst.trans (ht.enrolled.notice hlt), ht.notice hlt (hne x hx)⟩

/-- Once those who hear the status have been told a new one, the listener knows it. -/
theorem deliverStatus (h : s.Informed id) (p : Progress) :
    Informed id (deliverStatus react { s with progress := p, measured := true }
      (p.status s.tolerance)) := by
  have hchanged := h.enrolled.changed p
  refine ((keeps hgrown hreact { s with progress := p, measured := true
    }).foldl_deliver_of_reached id h.enrolled.statusAscending h.ahead ?_ ?_ ?_).2
  · intro hmissed
    refine ⟨hchanged.enrolled.grown_self, h.of_grown hchanged h.ahead ?_⟩
    intro hid
    exact absurd rfl (hmissed id hid)
  · rintro x hx rfl told htold
    have hnotices := hchanged.enrolled.notices fun n hn => by
      obtain ⟨other, hother, rfl⟩ := List.mem_map.mp (htold n hn)
      exact h.enrolled.statusIssued other hother
    exact ⟨hnotices, h.of_grown (hchanged.trans hnotices) h.ahead fun _ => lastTold_concat told x _⟩
  · rintro x hx hne t ⟨hst, ht⟩
    have hlt := hst.issued (h.enrolled.statusIssued x hx)
    exact ⟨hst.trans (ht.enrolled.notice hlt), ht.notice hlt hne⟩

/-- To tell who is in sync leaves the listener informed of the status. -/
theorem deliverInSync (h : s.Informed id) (p : Progress) :
    Informed id (s.deliverInSync react p) := by
  have hcorrected := h.of_grown (h.enrolled.corrected p) h.ahead h.current
  unfold State.deliverInSync
  refine hcorrected.foldl_deliver hgrown hreact
    (fun sub : InSyncSubscription => ⟨sub.id, .inSync (p.inSync sub.tolerance)⟩) ?_ ?_
  · intro sub hsub
    exact h.enrolled.inSyncIssued sub (List.mem_of_mem_filter hsub)
  · intro sub hsub
    exact h.noInSync sub (List.mem_of_mem_filter hsub)

theorem update (h : s.Informed id) (c : Progress.Change) : Informed id (s.update react c) := by
  unfold State.update
  dsimp only
  split
  next hsame =>
    -- nobody is told the status, and what was told last still is the status
    have hchanged := h.of_grown (h.enrolled.changed (s.progress.after c)) h.ahead fun hid => by
      have hold := h.current hid
      rw [← hsame] at hold
      exact hold
    exact hchanged.deliverInSync hgrown hreact _
  next => exact (h.deliverStatus hgrown hreact _).deliverInSync hgrown hreact _

/-- A step leaves a listener informed if the reactions do. -/
theorem step (h : s.Informed id) (op : Operation) : Informed id (step react op s) := by
  have hstep := h.enrolled.step hgrown op
  cases op with
  | change c => exact h.update hgrown hreact c
  | subscribeStatus name reactions =>
    refine h.of_grown hstep ?_ ?_
    · intro other hother hlt
      have hlisted := hstep.status other hother (Nat.lt_trans hlt h.issued)
      exact (h.ahead other hlisted hlt).of_append (Nat.lt_trans hlt h.issued) rfl
    · intro hid
      exact h.current (hstep.status id hid h.issued)
  | subscribeInSync name tolerance reactions =>
    refine h.of_grown hstep ?_ h.current
    intro other hother hlt
    exact (h.ahead other hother hlt).of_append (Nat.lt_trans hlt h.issued) rfl
  | unsubscribeStatus ended =>
    exact h.of_grown hstep (fun other hother => h.ahead other (List.mem_of_mem_filter hother))
      fun hid => h.current (List.mem_of_mem_filter hid)
  | unsubscribeInSync ended => exact h.of_grown hstep h.ahead h.current

end update

theorem perform (h : s.Informed id) (op : Operation) : (perform op s).Informed id := by
  refine performWithin_induction_of_grown (P := fun _ s t => s.Informed id → t.Informed id) ?_ ?_
    _ op s h
  · exact fun _ _ h => h
  · intro react hgrown hreact op s h
    exact h.step hgrown hreact op

/-- **Whatever others do, an informed listener stays informed.** -/
theorem performAll (h : s.Informed id) (ops : List Operation) : (s.performAll ops).Informed id :=
  performAll_induction h fun _ ht op _ => ht.perform op

end Informed

/-- A new listener to the status is informed if the others have nothing left to do. -/
theorem informed_of_subscribeStatus (h : s.Enrolled)
    (hidle : ∀ other ∈ s.statusSubscriptions, s.Idle other) (name : String)
    (reactions : List (List Operation)) :
    (perform (.subscribeStatus name reactions) s).Informed s.listeners.length := by
  have henrolled := (h.perform (.subscribeStatus name reactions)).enrolled
  rw [perform_subscribeStatus] at henrolled ⊢
  refine ⟨henrolled, ?_, ?_, ?_, ?_⟩
  · simp
  · exact fun sub hsub => (h.inSyncIssued sub hsub).ne
  · intro other hother hlt
    rcases List.mem_append.mp hother with hold | hnew
    · exact (hidle other hold).of_append hlt rfl
    · exact absurd (List.mem_singleton.mp hnew) hlt.ne
  · exact fun _ => .of_nil (h.toldTo_eq_nil (Nat.le_refl _)) _

/-! ### Where no listener to the status reacts -/

/-- No listener to the status has anything left to do or will ever have, every flag is right, and
everyone who hears the status knows it. -/
structure Calm (s : State) : Prop where
  /-- The registries are in order. -/
  enrolled : s.Enrolled
  /-- Reactions to come bring no listener to the status along that reacts. -/
  pending : ∀ l ∈ s.listeners, ∀ ops ∈ l.reactions, ∀ op ∈ ops, op.Calm
  /-- Those who hear the status have nothing left to do. -/
  idle : ∀ id ∈ s.statusSubscriptions, s.Idle id
  /-- Every flag says whether the node is in sync at the tolerance of its listener. -/
  accurate : ∀ sub ∈ s.inSyncSubscriptions, sub.inSync = s.progress.inSync sub.tolerance
  /-- What those who hear the status were told last is the status. -/
  current : ∀ id ∈ s.statusSubscriptions, s.LastTold id (.status s.status)

namespace Calm

theorem initial (tolerance : UInt64) : (State.initial tolerance).Calm where
  enrolled := .initial tolerance
  pending _ h := absurd h List.not_mem_nil
  idle _ h := absurd h List.not_mem_nil
  accurate _ h := absurd h List.not_mem_nil
  current _ h := absurd h List.not_mem_nil

/-- Notices to those who do not hear the status do not matter. -/
theorem notices (h : s.Calm) {ns : List Notice}
    (hissued : ∀ n ∈ ns, n.listener < s.listeners.length)
    (hns : ∀ n ∈ ns, n.listener ∉ s.statusSubscriptions) :
    Calm { s with notices := s.notices ++ ns } := by
  refine ⟨(h.enrolled.notices hissued).enrolled, h.pending, h.idle, h.accurate, ?_⟩
  intro id hid
  refine (h.current id hid).append ?_
  rintro n hn rfl
  exact hns n hn hid

/-- A notice to someone who does not hear the status does not matter. -/
theorem notice (h : s.Calm) {n : Notice} (hissued : n.listener < s.listeners.length)
    (hn : n.listener ∉ s.statusSubscriptions) :
    Calm { s with notices := s.notices ++ [n] } :=
  h.notices (List.forall_mem_singleton.mpr hissued) (List.forall_mem_singleton.mpr hn)

/-- The registries have grown when a change is noted. -/
theorem grown_noted (h : s.Calm) (p : Progress) : s.Grown (s.noted p) := by
  have hchanged := h.enrolled.changed p
  have hcorrected := hchanged.trans (hchanged.enrolled.corrected p)
  have hissued : ∀ n ∈ s.statusNotices p, n.listener < s.listeners.length := by
    unfold statusNotices
    split
    · exact fun _ hn => absurd hn List.not_mem_nil
    · exact List.forall_mem_map.mpr h.enrolled.statusIssued
  exact hcorrected.trans (hcorrected.enrolled.notices hissued)

/-- When a change is noted, the flags are right and those who hear the status know it. -/
theorem noted (h : s.Calm) (p : Progress) : (s.noted p).Calm := by
  refine ⟨(h.grown_noted p).enrolled, h.pending, h.idle, ?_, ?_⟩
  · exact List.forall_mem_map.mpr fun _ _ => rfl
  · intro id hid told htold
    have hnews := newsFor_statusNotices h.enrolled hid p
    have htoldTo : (s.noted p).toldTo id = s.toldTo id ++ newsFor id (s.statusNotices p) :=
      newsFor_append ..
    have hstatus : (s.noted p).status = p.status s.tolerance := rfl
    rw [htoldTo, hnews] at htold
    rw [hstatus]
    split at htold
    next hsame =>
      rw [List.append_nil] at htold
      rw [hsame]
      exact h.current id hid told htold
    next =>
      rw [List.getLast?_concat] at htold
      exact (Option.some.inj htold).symm

/-- Reactions that are run leave fewer to come. -/
theorem pop (h : s.Calm) {name : String} {ops : List Operation} {rest : List (List Operation)}
    (hlistener : s.listeners[id]? = some ⟨name, ops :: rest⟩) :
    Calm { s with listeners := s.listeners.set id ⟨name, rest⟩ } := by
  refine ⟨(h.enrolled.pop _ _).enrolled, ?_, ?_, h.accurate, h.current⟩
  · intro l hl
    rcases List.mem_or_eq_of_mem_set hl with hold | rfl
    · exact h.pending l hold
    · intro ops' hops'
      exact h.pending _ (List.mem_of_getElem? hlistener) ops' (List.mem_cons_of_mem _ hops')
  · intro other hother
    exact (h.idle other hother).of_pop hlistener

/-- What a listener is about to do is calm. -/
theorem calm_of_pending (h : s.Calm) {name : String} {ops : List Operation}
    {rest : List (List Operation)} (hlistener : s.listeners[id]? = some ⟨name, ops :: rest⟩) :
    ∀ op ∈ ops, op.Calm :=
  h.pending _ (List.mem_of_getElem? hlistener) ops List.mem_cons_self

section update

variable (hgrown : ∀ (op : Operation) (t : State), t.Enrolled → t.Grown (react op t))
  (hreact : ∀ (op : Operation) (t : State), op.Calm → t.Calm → (react op t).Calm)

include hgrown hreact

theorem keeps (s : State) : Keeps react fun t => s.Grown t ∧ t.Calm := by
  refine (Enrolled.keeps hgrown s).and ⟨fun ht hlistener => ht.pop hlistener, ?_⟩
  intro t other name ops rest ht hlistener op hop u hu
  exact hreact op u (ht.calm_of_pending hlistener op hop) hu

theorem update (h : s.Calm) (c : Progress.Change) : (s.update react c).Calm := by
  have hnoted := h.noted (s.progress.after c)
  rw [update_of_idle h.idle]
  refine ((keeps hgrown hreact (s.noted (s.progress.after c))).foldl_deliver ?_
    ⟨hnoted.enrolled.grown_self, hnoted⟩).2
  rintro sub hsub t ⟨hst, ht⟩
  have hmem := List.mem_of_mem_filter hsub
  have hgrown' := (h.grown_noted _).trans hst
  have hlt := hgrown'.issued (h.enrolled.inSyncIssued sub hmem)
  exact ⟨hst.trans (ht.enrolled.notice hlt),
    ht.notice hlt (hgrown'.not_mem_status h.enrolled hmem)⟩

/-- A calm step leaves a calm state if calm reactions do. -/
theorem step (h : s.Calm) (hop : op.Calm) : (step react op s).Calm := by
  have hstep := (h.enrolled.step hgrown op).enrolled
  cases hop with
  | change c => exact h.update hgrown hreact c
  | subscribeStatus name =>
    refine ⟨hstep, ?_, ?_, h.accurate, ?_⟩
    · exact List.forall_mem_append.mpr
        ⟨h.pending, List.forall_mem_singleton.mpr fun _ hops => absurd hops List.not_mem_nil⟩
    · intro id hid
      rcases List.mem_append.mp hid with hold | hnew
      · exact (h.idle id hold).of_append (h.enrolled.statusIssued id hold) rfl
      · obtain rfl := List.mem_singleton.mp hnew
        intro l hl
        obtain rfl : _ = l := Option.some.inj (List.getElem?_concat_length.symm.trans hl)
        rfl
    · intro id hid
      rcases List.mem_append.mp hid with hold | hnew
      · exact h.current id hold
      · obtain rfl := List.mem_singleton.mp hnew
        exact .of_nil (h.enrolled.toldTo_eq_nil (Nat.le_refl _)) _
  | subscribeInSync name tolerance reactions hreactions =>
    refine ⟨hstep, ?_, ?_, ?_, h.current⟩
    · exact List.forall_mem_append.mpr ⟨h.pending, List.forall_mem_singleton.mpr hreactions⟩
    · intro id hid
      exact (h.idle id hid).of_append (h.enrolled.statusIssued id hid) rfl
    · exact List.forall_mem_append.mpr ⟨h.accurate, List.forall_mem_singleton.mpr rfl⟩
  | unsubscribeStatus ended =>
    exact ⟨hstep, h.pending, fun id hid => h.idle id (List.mem_of_mem_filter hid), h.accurate,
      fun id hid => h.current id (List.mem_of_mem_filter hid)⟩
  | unsubscribeInSync ended =>
    exact ⟨hstep, h.pending, h.idle,
      fun sub hsub => h.accurate sub (List.mem_of_mem_filter hsub), h.current⟩

end update

/-- **A calm operation keeps a state calm**, however deep the reactions nest. -/
theorem perform (h : s.Calm) (hop : op.Calm) : (perform op s).Calm := by
  refine performWithin_induction_of_grown (P := fun op s t => op.Calm → s.Calm → t.Calm) ?_ ?_
    _ op s hop h
  · exact fun _ _ _ h => h
  · intro react hgrown hreact op s hop h
    exact h.step hgrown hreact hop

theorem performAll (h : s.Calm) {ops : List Operation} (hops : ∀ op ∈ ops, op.Calm) :
    (s.performAll ops).Calm :=
  performAll_induction h fun _ ht op hop => ht.perform (hops op hop)

end Calm

/-! ### Listeners to being in sync -/

/-- A number has one subscription to being in sync. -/
theorem Enrolled.eq_of_id_eq (h : s.Enrolled) {sub other : InSyncSubscription}
    (hsub : sub ∈ s.inSyncSubscriptions) (hother : other ∈ s.inSyncSubscriptions)
    (hid : sub.id = other.id) : sub = other := by
  have hnodup : (s.inSyncSubscriptions.map (·.id)).Nodup :=
    List.pairwise_map.mpr (h.inSyncAscending.imp Nat.ne_of_lt)
  exact List.inj_on_of_nodup_map hnodup hsub hother hid

/-- No listener to the status reacts, nobody who hears of being in sync before a listener has
anything left to do, and the listener knows whether the node is in sync. -/
structure Aware (id : Nat) (s : State) : Prop where
  /-- No listener to the status reacts. -/
  calm : s.Calm
  /-- The number was given. -/
  issued : id < s.listeners.length
  /-- It is not that of a listener to the status. -/
  noStatus : id ∉ s.statusSubscriptions
  /-- Those who are told before have nothing left to do. -/
  ahead : ∀ sub ∈ s.inSyncSubscriptions, sub.id < id → s.Idle sub.id
  /-- What the listener was told last is whether the node is in sync at its tolerance. -/
  current : ∀ sub ∈ s.inSyncSubscriptions, sub.id = id →
    s.LastTold id (.inSync (s.progress.inSync sub.tolerance))

namespace Aware

/-- Only those before, and the last news, can make a difference. -/
theorem of_grown (h : s.Aware id) (hgrown : s.Grown t) (hcalm : t.Calm)
    (hahead : ∀ sub ∈ t.inSyncSubscriptions, sub.id < id → t.Idle sub.id)
    (hcurrent : ∀ sub ∈ t.inSyncSubscriptions, sub.id = id →
      t.LastTold id (.inSync (t.progress.inSync sub.tolerance))) : t.Aware id := by
  refine ⟨hcalm, hgrown.issued h.issued, ?_, hahead, hcurrent⟩
  intro hid
  exact h.noStatus (hgrown.status id hid h.issued)

/-- A notice to another listener does not matter, if that does not hear the status. -/
theorem notice (h : s.Aware id) {n : Notice} (hissued : n.listener < s.listeners.length)
    (hn : n.listener ∉ s.statusSubscriptions) (hne : n.listener ≠ id) :
    Aware id { s with notices := s.notices ++ [n] } :=
  h.of_grown (h.calm.enrolled.notice hissued) (h.calm.notice hissued hn) h.ahead
    fun sub hsub hid => (h.current sub hsub hid).append (List.forall_mem_singleton.mpr hne)

/-- If the flag of the listener was right, the listener is aware of a change that is noted. -/
theorem noted (h : s.Aware id) (p : Progress) (hright : ∀ sub ∈ s.inSyncSubscriptions,
    sub.id = id → sub.inSync = p.inSync sub.tolerance) : (s.noted p).Aware id := by
  refine h.of_grown (h.calm.grown_noted p) (h.calm.noted p) ?_ ?_
  · exact List.forall_mem_map.mpr h.ahead
  · refine List.forall_mem_map.mpr fun sub hsub hid => ?_
    have hbefore := h.current sub hsub hid
    rw [← h.calm.accurate sub hsub, hright sub hsub hid] at hbefore
    refine hbefore.append ?_
    unfold statusNotices
    split
    · exact fun _ hn => absurd hn List.not_mem_nil
    · rw [List.forall_mem_map]
      rintro other hother rfl
      exact h.noStatus hother

section update

variable (hgrown : ∀ (op : Operation) (t : State), t.Enrolled → t.Grown (react op t))
  (hreact : ∀ (op : Operation) (t : State), op.Calm → t.Aware id → (react op t).Aware id)

include hgrown hreact

theorem keeps (s : State) : Keeps react fun t => s.Grown t ∧ t.Aware id := by
  refine (Enrolled.keeps hgrown s).and ⟨?_, ?_⟩
  · intro t other name ops rest ht hlistener
    exact ht.of_grown (ht.calm.enrolled.pop _ _) (ht.calm.pop hlistener)
      (fun sub hsub hlt => (ht.ahead sub hsub hlt).of_pop hlistener) ht.current
  · intro t other name ops rest ht hlistener op hop u hu
    exact hreact op u (ht.calm.calm_of_pending hlistener op hop) hu

theorem update (h : s.Aware id) (c : Progress.Change) : (s.update react c).Aware id := by
  generalize hp : s.progress.after c = p
  have hgrowth := h.calm.grown_noted p
  have hmem {sub : InSyncSubscription} (hsub : sub ∈ s.inSyncSubscriptions.filter fun sub =>
      sub.inSync != p.inSync sub.tolerance) : sub ∈ s.inSyncSubscriptions :=
    List.mem_of_mem_filter hsub
  rw [update_of_idle h.calm.idle, hp]
  refine ((keeps hgrown hreact (s.noted p)).foldl_deliver_of_reached id
    (h.calm.enrolled.inSyncAscending.filter _) (fun sub hsub => h.ahead sub (hmem hsub))
    ?_ ?_ ?_).2
  · -- nobody under the number is told: then its flag was right before the change
    intro hmissed
    refine ⟨hgrowth.enrolled.grown_self, h.noted p ?_⟩
    intro sub hsub hid
    by_contra hwrong
    exact hmissed sub (List.mem_filter.mpr ⟨hsub, bne_iff_ne.mpr hwrong⟩) hid
  · rintro sub hsub rfl told htold
    have hothers : ∀ n ∈ told ++ [⟨sub.id, .inSync (p.inSync sub.tolerance)⟩],
        n.listener < s.listeners.length ∧ n.listener ∉ s.statusSubscriptions := by
      intro n hn
      obtain ⟨other, hother, rfl⟩ := List.mem_map.mp (htold n hn)
      exact ⟨h.calm.enrolled.inSyncIssued other (hmem hother),
        h.calm.enrolled.apart other (hmem hother)⟩
    have hnotices := hgrowth.enrolled.notices fun n hn => (hothers n hn).1
    have hcalm := (h.calm.noted p).notices (fun n hn => (hothers n hn).1)
      fun n hn => (hothers n hn).2
    refine ⟨hnotices, h.of_grown (hgrowth.trans hnotices) hcalm
      (List.forall_mem_map.mpr h.ahead) (List.forall_mem_map.mpr ?_)⟩
    intro other hother hid
    rw [h.calm.enrolled.eq_of_id_eq hother (hmem hsub) hid]
    exact lastTold_concat told sub.id _
  · rintro sub hsub hne t ⟨hst, ht⟩
    have hgrown' := hgrowth.trans hst
    have hlt := hgrown'.issued (h.calm.enrolled.inSyncIssued sub (hmem hsub))
    exact ⟨hst.trans (ht.calm.enrolled.notice hlt),
      ht.notice hlt (hgrown'.not_mem_status h.calm.enrolled (hmem hsub)) hne⟩

end update

/-- A calm step leaves a listener aware if calm reactions do. -/
theorem step (hgrown : ∀ (op : Operation) (t : State), t.Enrolled → t.Grown (react op t))
    (hcalm : ∀ (op : Operation) (t : State), op.Calm → t.Calm → (react op t).Calm)
    (hreact : ∀ (op : Operation) (t : State), op.Calm → t.Aware id → (react op t).Aware id)
    (h : s.Aware id) (hop : op.Calm) : (step react op s).Aware id := by
  have hstep := h.calm.enrolled.step hgrown op
  have hstepCalm := h.calm.step hgrown hcalm hop
  have hlisted {sub : InSyncSubscription} (hsub : sub ∈ s.inSyncSubscriptions) :
      sub.id < s.listeners.length := h.calm.enrolled.inSyncIssued sub hsub
  cases hop with
  | change c => exact h.update hgrown hreact c
  | subscribeStatus name =>
    refine h.of_grown hstep hstepCalm ?_ h.current
    intro sub hsub hlt
    exact (h.ahead sub hsub hlt).of_append (hlisted hsub) rfl
  | subscribeInSync name tolerance reactions hreactions =>
    refine h.of_grown hstep hstepCalm ?_ ?_
    · intro sub hsub hlt
      rcases List.mem_append.mp hsub with hold | hnew
      · exact (h.ahead sub hold hlt).of_append (hlisted hold) rfl
      · rw [List.mem_singleton.mp hnew] at hlt
        exact absurd (hlt.trans h.issued) (Nat.lt_irrefl _)
    · intro sub hsub hid
      rcases List.mem_append.mp hsub with hold | hnew
      · exact h.current sub hold hid
      · rw [List.mem_singleton.mp hnew] at hid
        exact absurd hid h.issued.ne'
  | unsubscribeStatus ended => exact h.of_grown hstep hstepCalm h.ahead h.current
  | unsubscribeInSync ended =>
    exact h.of_grown hstep hstepCalm
      (fun sub hsub => h.ahead sub (List.mem_of_mem_filter hsub))
      fun sub hsub => h.current sub (List.mem_of_mem_filter hsub)

theorem perform (h : s.Aware id) (hop : op.Calm) : (perform op s).Aware id := by
  have hboth := performWithin_induction_of_grown
    (P := fun op s t => op.Calm → (s.Calm → t.Calm) ∧ (s.Aware id → t.Aware id)) ?_ ?_
    (op.weight + s.pendingReactions) op s
  · exact (hboth hop).2 h
  · exact fun _ _ _ => ⟨fun h => h, fun h => h⟩
  · intro react hgrown hreact op s hop
    have hcalm : ∀ op t, op.Calm → t.Calm → (react op t).Calm :=
      fun op t hop => (hreact op t hop).1
    exact ⟨fun h => h.step hgrown hcalm hop,
      fun h => h.step hgrown hcalm (fun op t hop => (hreact op t hop).2) hop⟩

/-- **As long as no listener to the status reacts, an aware listener stays aware.** -/
theorem performAll (h : s.Aware id) {ops : List Operation} (hops : ∀ op ∈ ops, op.Calm) :
    (s.performAll ops).Aware id :=
  performAll_induction h fun _ ht op hop => ht.perform (hops op hop)

end Aware

/-- A new listener to being in sync is aware if the others have nothing left to do. -/
theorem aware_of_subscribeInSync (h : s.Calm)
    (hidle : ∀ sub ∈ s.inSyncSubscriptions, s.Idle sub.id) {name : String}
    {wanted : Option UInt64} {reactions : List (List Operation)}
    (hop : (Operation.subscribeInSync name wanted reactions).Calm) :
    (perform (.subscribeInSync name wanted reactions) s).Aware s.listeners.length := by
  have hcalm := h.perform hop
  rw [perform_subscribeInSync] at hcalm ⊢
  refine ⟨hcalm, ?_, ?_, ?_, ?_⟩
  · simp
  · exact fun hid => absurd (h.enrolled.statusIssued _ hid) (Nat.lt_irrefl _)
  · intro sub hsub hlt
    rcases List.mem_append.mp hsub with hold | hnew
    · exact (hidle sub hold).of_append hlt rfl
    · rw [List.mem_singleton.mp hnew] at hlt
      exact absurd hlt (Nat.lt_irrefl _)
  · exact fun _ _ _ => .of_nil (h.enrolled.toldTo_eq_nil (Nat.le_refl _)) _

/-- A subscription to being in sync keeps the tolerance with which it was made. -/
theorem tolerance_of_subscribeInSync (h : s.Enrolled) (name : String)
    (wanted : Option UInt64) (reactions : List (List Operation)) {ops : List Operation}
    {sub : InSyncSubscription}
    (hsub : sub ∈
      ((perform (.subscribeInSync name wanted reactions) s).performAll ops).inSyncSubscriptions)
    (hid : sub.id = s.listeners.length) : sub.tolerance = wanted.getD s.tolerance := by
  have hafter := h.perform (.subscribeInSync name wanted reactions)
  have hissued : sub.id <
      (perform (.subscribeInSync name wanted reactions) s).listeners.length := by
    rw [perform_subscribeInSync, hid]
    simp
  obtain ⟨old, hold, hsame, htolerance⟩ := (hafter.enrolled.performAll ops).inSync sub hsub hissued
  rw [perform_subscribeInSync] at hold
  rcases List.mem_append.mp hold with hbefore | hnew
  · exact absurd (hsame.trans hid) (h.inSyncIssued old hbefore).ne
  · rw [← htolerance, List.mem_singleton.mp hnew]

/-! ### After the last reaction -/

/-- Once nobody has anything left to do, a change puts every flag right, those are told whose flag
was wrong, and if the status is new, all those who hear it. -/
theorem current_of_quiet (h : s.Enrolled) (hquiet : s.Quiet) (c : Progress.Change) :
    let t := perform (.change c) s
    (∀ sub ∈ t.inSyncSubscriptions, sub.inSync = t.progress.inSync sub.tolerance) ∧
    (∀ sub ∈ s.inSyncSubscriptions, sub.inSync ≠ t.progress.inSync sub.tolerance →
      t.LastTold sub.id (.inSync (t.progress.inSync sub.tolerance))) ∧
    (t.status ≠ s.status → ∀ id ∈ t.statusSubscriptions, t.LastTold id (.status t.status)) := by
  dsimp only
  rw [perform_change_of_quiet hquiet]
  refine ⟨List.forall_mem_map.mpr fun _ _ => rfl, ?_, ?_⟩
  · intro sub hsub hwrong told htold
    unfold toldTo at htold
    dsimp only at htold hwrong ⊢
    rw [newsFor_append, newsFor_append, newsFor_inSyncNotices h hsub, if_neg (Ne.symm hwrong),
      ← List.append_assoc, List.getLast?_concat] at htold
    exact (Option.some.inj htold).symm
  · intro hnew id hid told htold
    have hother : ∀ sub ∈ s.inSyncSubscriptions, sub.id ≠ id := by
      rintro sub hsub rfl
      exact h.apart sub hsub hid
    unfold toldTo at htold
    dsimp only at htold
    rw [newsFor_append, newsFor_append, newsFor_inSyncNotices_of_not_mem hother, List.append_nil,
      newsFor_statusNotices h hid, if_neg (by exact hnew), List.getLast?_concat] at htold
    exact (Option.some.inj htold).symm

/-! ### What is known at the end -/

/-- **Who is told last is told what holds.** Take any operations on the sync state of a node that
has not begun, with whatever reactions they bring along.

* A listener to the status whose subscription was made when nobody else who heard the status had
  anything left to do was told the status last, whatever others have done since.
* If no listener to the status reacts, then every flag is right, and everyone who hears the status
  was told it last.  A listener to being in sync whose subscription was made when nobody else who
  heard of being in sync had anything left to do was told last whether the node is in sync at its
  tolerance.
* Once no listener has anything left to do, the next change puts every flag right, those are told
  whose flag was wrong, and everyone who hears the status is told it if it is new. -/
theorem last_news_current (tolerance : UInt64) (ops : List Operation) :
    let s := (initial tolerance).performAll ops
    (∀ earlier name reactions later, ops = earlier ++ .subscribeStatus name reactions :: later →
      let s₀ := (initial tolerance).performAll earlier
      (∀ other ∈ s₀.statusSubscriptions, s₀.Idle other) →
      s₀.listeners.length ∈ s.statusSubscriptions →
      s.LastTold s₀.listeners.length (.status s.status)) ∧
    ((∀ op ∈ ops, op.Calm) →
      (∀ sub ∈ s.inSyncSubscriptions, sub.inSync = s.progress.inSync sub.tolerance) ∧
      (∀ id ∈ s.statusSubscriptions, s.LastTold id (.status s.status)) ∧
      ∀ earlier name wanted reactions later,
        ops = earlier ++ .subscribeInSync name wanted reactions :: later →
        let s₀ := (initial tolerance).performAll earlier
        (∀ other ∈ s₀.inSyncSubscriptions, s₀.Idle other.id) →
        ∀ sub ∈ s.inSyncSubscriptions, sub.id = s₀.listeners.length →
          s.LastTold sub.id (.inSync (s.progress.inSync (wanted.getD tolerance)))) ∧
    (s.Quiet → ∀ c, let t := perform (.change c) s
      (∀ sub ∈ t.inSyncSubscriptions, sub.inSync = t.progress.inSync sub.tolerance) ∧
      (∀ sub ∈ s.inSyncSubscriptions, sub.inSync ≠ t.progress.inSync sub.tolerance →
        t.LastTold sub.id (.inSync (t.progress.inSync sub.tolerance))) ∧
      (t.status ≠ s.status → ∀ id ∈ t.statusSubscriptions, t.LastTold id (.status t.status))) := by
  intro s
  have hinitial := Enrolled.initial tolerance
  refine ⟨?_, ?_, fun hquiet => current_of_quiet (hinitial.performAll ops).enrolled hquiet⟩
  · rintro earlier name reactions later rfl s₀ hidle hid
    have henrolled : s₀.Enrolled := (hinitial.performAll earlier).enrolled
    have hinformed := (informed_of_subscribeStatus henrolled hidle name reactions).performAll later
    have hs : s = (perform (.subscribeStatus name reactions) s₀).performAll later :=
      performAll_append ..
    rw [hs] at hid ⊢
    exact hinformed.current hid
  · intro hops
    have hcalm : s.Calm := (Calm.initial tolerance).performAll hops
    refine ⟨hcalm.accurate, hcalm.current, ?_⟩
    rintro earlier name wanted reactions later rfl s₀ hidle sub hsub hid
    obtain ⟨hearlier, hrest⟩ := List.forall_mem_append.mp hops
    obtain ⟨hop, hlater⟩ := List.forall_mem_cons.mp hrest
    have hcalm₀ : s₀.Calm := (Calm.initial tolerance).performAll hearlier
    have htolerance₀ : s₀.tolerance = tolerance := (hinitial.performAll earlier).tolerance
    have haware := (aware_of_subscribeInSync hcalm₀ hidle hop).performAll hlater
    have hs : s = (perform (.subscribeInSync name wanted reactions) s₀).performAll later :=
      performAll_append ..
    rw [hs] at hsub ⊢
    have htolerance := tolerance_of_subscribeInSync hcalm₀.enrolled name wanted reactions hsub hid
    rw [← htolerance₀, ← htolerance, hid]
    exact haware.current sub hsub hid

/-! ### Runs with a listener that imports what is missing -/

/-- Whoever is told that the node fell behind brings it to this block. -/
def importing : List (List Operation) := [[.change (.localHead 100)]]

/-- The node is in sync, some listeners join, and a peer announces a block. -/
def announced (listeners : List Operation) : List Operation :=
  .change .initialDone :: listeners ++ [.change (.best 100)]

/-- A listener to the status imports what is missing, and another listens before it. -/
def eagerly : List Operation :=
  announced [.subscribeStatus "watcher" [], .subscribeStatus "importer" importing]

/-- A listener to being in sync imports what is missing, and others listen before it. -/
def patiently : List Operation :=
  announced [.subscribeStatus "status" [], .subscribeInSync "watcher" none [],
    .subscribeInSync "importer" none importing]

/-- Who is told before the importer is told again: the last news is what holds. -/
theorem last_news_current_of_importing :
    ((initial 5).performAll eagerly).toldTo 0 = [.status (some ⟨0, 0, 100⟩), .status none] ∧
    ((initial 5).performAll eagerly).LastTold 0
      (.status ((initial 5).performAll eagerly).status) ∧
    (∀ op ∈ patiently, op.Calm) ∧
    ((initial 5).performAll patiently).toldTo 1 = [.inSync false, .inSync true] ∧
    ((initial 5).performAll patiently).LastTold 1 (.inSync true) := by
  have hcalm : ∀ op ∈ patiently, op.Calm := by
    have himporter : (Operation.subscribeInSync "importer" none importing).Calm := by
      refine .subscribeInSync _ _ _ ?_
      simp [importing, Operation.Calm.change]
    simp [patiently, announced, Operation.Calm.change, Operation.Calm.subscribeStatus, himporter,
      Operation.Calm.subscribeInSync]
  refine ⟨by decide, ?_, hcalm, by decide, ?_⟩
  · have hnobody : ((initial 5).performAll [.change .initialDone]).statusSubscriptions = [] := rfl
    exact (last_news_current 5 eagerly).1 [.change .initialDone] "watcher" []
      [.subscribeStatus "importer" importing, .change (.best 100)] rfl
      (by rw [hnobody]; exact fun _ h => absurd h List.not_mem_nil) (by decide)
  · have hnobody : ((initial 5).performAll
        [.change .initialDone, .subscribeStatus "status" []]).inSyncSubscriptions = [] := rfl
    have hlast := ((last_news_current 5 patiently).2.1 hcalm).2.2
      [.change .initialDone, .subscribeStatus "status" []] "watcher" none []
      [.subscribeInSync "importer" none importing, .change (.best 100)] rfl
      (by rw [hnobody]; exact fun _ h => absurd h List.not_mem_nil) ⟨1, 5, true⟩ (by decide) rfl
    exact hlast

/-- **Who is told after a listener that reacted is left with what held before.** A listener to the
status imports what is missing, and the one after it was last told that the node is behind. A
listener to being in sync is told that the node is not in sync, and its flag says so, though by
then the block was imported.  And if the importer listens to being in sync, the one after it is
told of the way back before it is told of the way out. -/
theorem reactions_leave_stale_news :
    (let s := (initial 5).performAll
        (announced [.subscribeStatus "importer" importing, .subscribeStatus "watcher" []]);
      1 ∈ s.statusSubscriptions ∧ s.status = none ∧
        s.toldTo 1 = [.status none, .status (some ⟨0, 0, 100⟩)]) ∧
    (let s := (initial 5).performAll
        (announced [.subscribeInSync "watcher" none [], .subscribeStatus "importer" importing]);
      s.inSync = true ∧ s.inSyncSubscriptions = [⟨0, 5, false⟩] ∧
        s.toldTo 0 = [.inSync false]) ∧
    (let s := (initial 5).performAll
        (announced [.subscribeInSync "importer" none importing,
          .subscribeInSync "watcher" none []]);
      s.inSync = true ∧ s.inSyncSubscriptions = [⟨0, 5, true⟩, ⟨1, 5, true⟩] ∧
        s.toldTo 1 = [.inSync true, .inSync false]) := by
  decide

end State

end ExecutionNode.Sync
