import Mathlib.Data.List.Destutter
import ExecutionNode.Proofs.Sync.Progress
import ExecutionNode.Proofs.Sync.Registries

/-!
# What listeners that only listen are told

Without reactions a change is noted, the listeners to the status are told, the flags of those to
being in sync are corrected, and those are told whose flag was wrong (`perform_change_of_quiet`).
`Settled` is the invariant that carries everything here: besides the order of the registries it
says that every flag is right, so that a flag is wrong after a change exactly if the change
changed what it stands for.

* A listener of either kind is told by each operation what it changed of one view of the state,
  the status or being in sync at a tolerance (`toldTo_perform_of_hearsStatus`,
  `toldTo_perform_of_hearsInSync`).
* Over a run this gives the `course` of the view: its history, without repetitions
  (`exists_told_performAll`, one induction for both kinds).
* `listeners_told_exactly` puts these together with the order of notices, the numbers and the
  ends of subscriptions.
-/

namespace ExecutionNode.Sync

/-- The reactions that an operation brings along. -/
def Operation.reactions : Operation → List (List Operation)
  | .subscribeStatus _ reactions => reactions
  | .subscribeInSync _ _ reactions => reactions
  | _ => []

/-- Whether an operation ends the subscription of a number to the status. -/
def Operation.endsStatus (id : Nat) : Operation → Bool
  | .unsubscribeStatus ended => id = ended
  | _ => false

/-- Whether an operation ends the subscription of a number to being in sync. -/
def Operation.endsInSync (id : Nat) : Operation → Bool
  | .unsubscribeInSync ended => id = ended
  | _ => false

/-- What notices tell one listener, in order. -/
def newsFor (id : Nat) (notices : List Notice) : List News :=
  (notices.filter (·.listener = id)).map (·.news)

@[simp] theorem newsFor_append (id : Nat) (earlier later : List Notice) :
    newsFor id (earlier ++ later) = newsFor id earlier ++ newsFor id later := by
  simp [newsFor]

/-- Notices to others tell a listener nothing. -/
theorem newsFor_eq_nil {id : Nat} {notices : List Notice} (h : ∀ n ∈ notices, n.listener ≠ id) :
    newsFor id notices = [] := by
  rw [newsFor, List.map_eq_nil_iff, List.filter_eq_nil_iff]
  intro n hn
  simpa using h n hn

/-- Of things in ascending order one alone has its number. -/
theorem filter_eq_singleton_of_pairwise {α : Type} (number : α → Nat) {xs : List α}
    (h : xs.Pairwise (number · < number ·)) {x : α} (hx : x ∈ xs) :
    xs.filter (fun y => number y = number x) = [x] := by
  induction xs with
  | nil => cases hx
  | cons y ys ih =>
    obtain ⟨hy, hys⟩ := List.pairwise_cons.mp h
    rcases List.mem_cons.mp hx with rfl | hx
    · rw [List.filter_cons_of_pos (by simp), List.filter_eq_nil_iff.mpr]
      intro z hz
      simpa using (hy z hz).ne'
    · rw [List.filter_cons_of_neg (by simpa using (hy x hx).ne), ih hys hx]

namespace State

variable {s : State} {react : Operation → State → State} {op : Operation} {id : Nat}

/-- What a listener was told, in order. -/
def toldTo (s : State) (id : Nat) : List News := newsFor id s.notices

/-- A state, and the state after each of the operations that follow. -/
def history (s : State) (ops : List Operation) : List State :=
  ops.scanl (fun s op => perform op s) s

/-- The values that are seen in a history, without repetitions. -/
def course {β : Type} [DecidableEq β] (view : State → β) (states : List State) : List β :=
  (states.map view).destutter (· ≠ ·)

/-! ### A change among listeners that only listen -/

/-- The notices of a change to those who are subscribed to the status. -/
def statusNotices (s : State) (p : Progress) : List Notice :=
  if p.status s.tolerance = s.status then []
  else s.statusSubscriptions.map fun id => ⟨id, .status (p.status s.tolerance)⟩

/-- The notices of a change to those who are subscribed to being in sync. -/
def inSyncNotices (s : State) (p : Progress) : List Notice :=
  (s.inSyncSubscriptions.filter fun sub => sub.inSync != p.inSync sub.tolerance).map fun sub =>
    ⟨sub.id, .inSync (p.inSync sub.tolerance)⟩

/-- The state once a change is noted, those who hear the status are told, and the flags are
corrected. -/
def noted (s : State) (p : Progress) : State :=
  { s with
    progress := p
    measured := true
    inSyncSubscriptions := s.inSyncSubscriptions.map fun sub =>
      { sub with inSync := p.inSync sub.tolerance }
    notices := s.notices ++ s.statusNotices p }

/-- Among listeners to the status that have nothing left to do, a change is noted, and then those
are told whose flag was wrong. -/
theorem update_of_idle (h : ∀ id ∈ s.statusSubscriptions, s.Idle id) (c : Progress.Change) :
    s.update react c =
      (s.inSyncSubscriptions.filter fun sub =>
        sub.inSync != (s.progress.after c).inSync sub.tolerance).foldl
        (fun t sub => t.deliver react ⟨sub.id, .inSync ((s.progress.after c).inSync sub.tolerance)⟩)
        (s.noted (s.progress.after c)) := by
  unfold update noted statusNotices
  dsimp only
  split
  · rw [List.append_nil]
    rfl
  · rw [deliverStatus, foldl_deliver_of_idle (s := { s with
      progress := s.progress.after c
      measured := true }) _ h]
    rfl

/-- Among quiet listeners a change is noted, the listeners are told, and the flags corrected. -/
theorem perform_change_of_quiet (h : s.Quiet) (c : Progress.Change) :
    perform (.change c) s =
      { s with
        progress := s.progress.after c
        measured := true
        inSyncSubscriptions := s.inSyncSubscriptions.map fun sub =>
          { sub with inSync := (s.progress.after c).inSync sub.tolerance }
        notices := s.notices ++ (s.statusNotices (s.progress.after c)
          ++ s.inSyncNotices (s.progress.after c)) } := by
  rw [perform_eq_step, step, update_of_idle fun id _ => h.idle id, foldl_deliver (by exact h),
    ← List.append_assoc]
  rfl

/-- A listener to the status is told a new one, once. -/
theorem newsFor_statusNotices (h : s.Enrolled) (hid : id ∈ s.statusSubscriptions) (p : Progress) :
    newsFor id (s.statusNotices p) =
      if p.status s.tolerance = s.status then [] else [.status (p.status s.tolerance)] := by
  unfold statusNotices newsFor
  split
  · rfl
  · rw [List.filter_map, List.map_map]
    have honce := filter_eq_singleton_of_pairwise (fun id => id) h.statusAscending hid
    exact congrArg _ honce

/-- Who is not subscribed to the status is not told of it. -/
theorem newsFor_statusNotices_of_not_mem (hid : id ∉ s.statusSubscriptions) (p : Progress) :
    newsFor id (s.statusNotices p) = [] := by
  apply newsFor_eq_nil
  unfold statusNotices
  split
  · simp
  · rw [List.forall_mem_map]
    rintro other hother rfl
    exact hid hother

/-- A listener to being in sync is told if its flag was wrong, once. -/
theorem newsFor_inSyncNotices (h : s.Enrolled) {sub : InSyncSubscription}
    (hsub : sub ∈ s.inSyncSubscriptions) (p : Progress) :
    newsFor sub.id (s.inSyncNotices p) =
      if p.inSync sub.tolerance = sub.inSync then [] else [.inSync (p.inSync sub.tolerance)] := by
  have honce := filter_eq_singleton_of_pairwise InSyncSubscription.id h.inSyncAscending
    hsub
  unfold inSyncNotices newsFor
  rw [List.filter_map, List.map_map]
  show List.map _ ((s.inSyncSubscriptions.filter _).filter fun other => other.id = sub.id) = _
  rw [List.filter_comm, honce]
  by_cases hflag : p.inSync sub.tolerance = sub.inSync
  · rw [if_pos hflag, List.filter_cons_of_neg (by simp [hflag])]
    rfl
  · rw [if_neg hflag, List.filter_cons_of_pos (by simpa using Ne.symm hflag)]
    rfl

/-- Who is not subscribed to being in sync is not told of it. -/
theorem newsFor_inSyncNotices_of_not_mem (hid : ∀ sub ∈ s.inSyncSubscriptions, sub.id ≠ id)
    (p : Progress) : newsFor id (s.inSyncNotices p) = [] := by
  apply newsFor_eq_nil
  unfold inSyncNotices
  rw [List.forall_mem_map]
  intro sub hsub
  exact hid sub (List.mem_of_mem_filter hsub)

/-! ### Settled states -/

/-- The listeners only listen, the registries are in order, and every flag is right. -/
structure Settled (s : State) : Prop where
  /-- The listeners only listen. -/
  quiet : s.Quiet
  /-- The registries are in order. -/
  enrolled : s.Enrolled
  /-- Every flag says whether the node is in sync at the tolerance of its listener. -/
  accurate : ∀ sub ∈ s.inSyncSubscriptions, sub.inSync = s.progress.inSync sub.tolerance

namespace Settled

theorem initial (tolerance : UInt64) : (State.initial tolerance).Settled :=
  ⟨fun _ h => absurd h List.not_mem_nil, .initial tolerance, fun _ h => absurd h List.not_mem_nil⟩

/-- **Operations that bring no reactions along keep a state settled.** In particular every flag
stays right. -/
theorem perform (h : s.Settled) (hop : op.reactions = []) : (perform op s).Settled := by
  have hjoined : ∀ name,
      State.Quiet { s with listeners := s.listeners ++ [⟨name, op.reactions⟩] } := by
    intro name l hl
    rcases List.mem_append.mp hl with hold | hnew
    · exact h.quiet l hold
    · rw [List.mem_singleton.mp hnew]
      exact hop
  refine ⟨?_, (h.enrolled.perform op).enrolled, ?_⟩
  · cases op with
    | change c =>
      rw [perform_change_of_quiet h.quiet]
      exact h.quiet
    | subscribeStatus name reactions =>
      rw [perform_subscribeStatus]
      exact hjoined name
    | subscribeInSync name tolerance reactions =>
      rw [perform_subscribeInSync]
      exact hjoined name
    | unsubscribeStatus id =>
      rw [perform_unsubscribeStatus]
      exact h.quiet
    | unsubscribeInSync id =>
      rw [perform_unsubscribeInSync]
      exact h.quiet
  · cases op with
    | change c =>
      rw [perform_change_of_quiet h.quiet]
      exact List.forall_mem_map.mpr fun _ _ => rfl
    | subscribeStatus name reactions =>
      rw [perform_subscribeStatus]
      exact h.accurate
    | subscribeInSync name tolerance reactions =>
      rw [perform_subscribeInSync]
      intro sub hsub
      rcases List.mem_append.mp hsub with hold | hnew
      · exact h.accurate sub hold
      · rw [List.mem_singleton.mp hnew]
    | unsubscribeStatus id =>
      rw [perform_unsubscribeStatus]
      exact h.accurate
    | unsubscribeInSync id =>
      rw [perform_unsubscribeInSync]
      exact fun sub hsub => h.accurate sub (List.mem_of_mem_filter hsub)

theorem performAll (h : s.Settled) {ops : List Operation} (hops : ∀ op ∈ ops, op.reactions = []) :
    (s.performAll ops).Settled :=
  performAll_induction h fun _ ht op hop => ht.perform (hops op hop)

end Settled

/-- What an operation tells a listener if it tells it the value of a view whenever that changed. -/
def newsOf {β : Type} [DecidableEq β] (view : State → β) (news : β → News) (before after : State) :
    List News :=
  if view after = view before then [] else [news (view after)]

/-- A listener to the status is told the status by an operation that changes it, and stays
subscribed unless the operation ends that. -/
theorem toldTo_perform_of_hearsStatus (h : s.Settled) (hid : id ∈ s.statusSubscriptions)
    (hstays : op.endsStatus id = false) :
    (State.perform op s).toldTo id = s.toldTo id ++ newsOf status .status s (State.perform op s) ∧
      id ∈ (State.perform op s).statusSubscriptions := by
  unfold toldTo newsOf
  cases op with
  | change c =>
    rw [perform_change_of_quiet h.quiet]
    have hother : ∀ sub ∈ s.inSyncSubscriptions, sub.id ≠ id := by
      rintro sub hsub rfl
      exact h.enrolled.apart sub hsub hid
    dsimp only
    rw [newsFor_append, newsFor_append, newsFor_statusNotices h.enrolled hid,
      newsFor_inSyncNotices_of_not_mem hother, List.append_nil]
    exact ⟨rfl, hid⟩
  | subscribeStatus name reactions =>
    rw [perform_subscribeStatus]
    exact ⟨by simp [status], List.mem_append_left _ hid⟩
  | subscribeInSync name tolerance reactions =>
    rw [perform_subscribeInSync]
    exact ⟨by simp [status], hid⟩
  | unsubscribeStatus ended =>
    rw [perform_unsubscribeStatus]
    have hne : id ≠ ended := by
      rintro rfl
      simp [Operation.endsStatus] at hstays
    exact ⟨by simp [status], List.mem_filter.mpr ⟨hid, decide_eq_true hne⟩⟩
  | unsubscribeInSync ended =>
    rw [perform_unsubscribeInSync]
    exact ⟨by simp [status], hid⟩

/-- A listener to being in sync is told so, or the contrary, by an operation that changes it at
the tolerance of the listener, and stays subscribed unless the operation ends that. -/
theorem toldTo_perform_of_hearsInSync {t : UInt64} (h : s.Settled)
    (hid : ∃ sub ∈ s.inSyncSubscriptions, sub.id = id ∧ sub.tolerance = t)
    (hstays : op.endsInSync id = false) :
    (State.perform op s).toldTo id =
        s.toldTo id ++ newsOf (·.progress.inSync t) .inSync s (State.perform op s) ∧
      ∃ sub ∈ (State.perform op s).inSyncSubscriptions, sub.id = id ∧ sub.tolerance = t := by
  obtain ⟨sub, hsub, rfl, rfl⟩ := hid
  unfold toldTo newsOf
  cases op with
  | change c =>
    rw [perform_change_of_quiet h.quiet]
    dsimp only
    rw [newsFor_append, newsFor_append, newsFor_inSyncNotices h.enrolled hsub,
      newsFor_statusNotices_of_not_mem (h.enrolled.apart sub hsub), List.nil_append,
      h.accurate sub hsub]
    exact ⟨rfl, _, List.mem_map_of_mem hsub, rfl, rfl⟩
  | subscribeStatus name reactions =>
    rw [perform_subscribeStatus]
    exact ⟨by simp, sub, hsub, rfl, rfl⟩
  | subscribeInSync name tolerance reactions =>
    rw [perform_subscribeInSync]
    exact ⟨by simp, sub, List.mem_append_left _ hsub, rfl, rfl⟩
  | unsubscribeStatus ended =>
    rw [perform_unsubscribeStatus]
    exact ⟨by simp, sub, hsub, rfl, rfl⟩
  | unsubscribeInSync ended =>
    rw [perform_unsubscribeInSync]
    have hne : sub.id ≠ ended := by
      rintro rfl
      simp [Operation.endsInSync] at hstays
    exact ⟨by simp, sub, List.mem_filter.mpr ⟨hsub, decide_eq_true hne⟩, rfl, rfl⟩

/-! ### Runs -/

/-- A number that was given and is in neither registry. -/
structure Silent (s : State) (id : Nat) : Prop where
  /-- It was given. -/
  issued : id < s.listeners.length
  /-- It is not subscribed to the status. -/
  noStatus : id ∉ s.statusSubscriptions
  /-- It is not subscribed to being in sync. -/
  noInSync : ∀ sub ∈ s.inSyncSubscriptions, sub.id ≠ id

/-- Who is in neither registry is told nothing, and no operation subscribes it again. -/
theorem toldTo_perform_of_silent (h : s.Settled) (hid : s.Silent id) (op : Operation) :
    (perform op s).toldTo id = s.toldTo id ∧ (perform op s).Silent id := by
  have hissued := (h.enrolled.perform op).issued hid.issued
  unfold toldTo
  cases op with
  | change c =>
    rw [perform_change_of_quiet h.quiet] at hissued ⊢
    dsimp only
    rw [newsFor_append, newsFor_append, newsFor_statusNotices_of_not_mem hid.noStatus,
      newsFor_inSyncNotices_of_not_mem hid.noInSync, List.append_nil, List.append_nil]
    exact ⟨rfl, hissued, hid.noStatus, List.forall_mem_map.mpr hid.noInSync⟩
  | subscribeStatus name reactions =>
    rw [perform_subscribeStatus] at hissued ⊢
    refine ⟨rfl, hissued, ?_, hid.noInSync⟩
    rw [List.mem_append, List.mem_singleton, not_or]
    exact ⟨hid.noStatus, hid.issued.ne⟩
  | subscribeInSync name tolerance reactions =>
    rw [perform_subscribeInSync] at hissued ⊢
    refine ⟨rfl, hissued, hid.noStatus, ?_⟩
    rw [List.forall_mem_append, List.forall_mem_singleton]
    exact ⟨hid.noInSync, hid.issued.ne'⟩
  | unsubscribeStatus ended =>
    rw [perform_unsubscribeStatus] at hissued ⊢
    exact ⟨rfl, hissued, fun hmem => hid.noStatus (List.mem_of_mem_filter hmem), hid.noInSync⟩
  | unsubscribeInSync ended =>
    rw [perform_unsubscribeInSync] at hissued ⊢
    exact ⟨rfl, hissued, hid.noStatus,
      fun sub hsub => hid.noInSync sub (List.mem_of_mem_filter hsub)⟩

/-- Who is in neither registry is never told anything again. -/
theorem toldTo_performAll_of_silent (h : s.Settled) (hid : s.Silent id) {ops : List Operation}
    (hops : ∀ op ∈ ops, op.reactions = []) : (s.performAll ops).toldTo id = s.toldTo id := by
  induction ops generalizing s with
  | nil => rfl
  | cons op ops ih =>
    obtain ⟨hop, hops⟩ := List.forall_mem_cons.mp hops
    obtain ⟨htold, hsilent⟩ := toldTo_perform_of_silent h hid op
    rw [performAll_cons, ih (h.perform hop) hsilent hops, htold]

section run

variable {β : Type} [DecidableEq β] {view : State → β} (news : β → News)

/-- The course of a view grows by the value that an operation leaves, if that is new. -/
theorem course_history_cons (view : State → β) (s : State) (op : Operation) (ops : List Operation) :
    course view (s.history (op :: ops)) =
      if view (perform op s) = view s then course view ((perform op s).history ops)
      else view s :: course view ((perform op s).history ops) := by
  have hhead : ∀ t : State, ∃ rest, t.history ops = t :: rest := by
    intro t
    cases ops with
    | nil => exact ⟨[], rfl⟩
    | cons op ops => exact ⟨_, List.scanl_cons⟩
  obtain ⟨rest, hrest⟩ := hhead (perform op s)
  have hhistory : s.history (op :: ops) = s :: (perform op s).history ops := List.scanl_cons
  unfold course
  rw [hhistory, hrest, List.map_cons, List.map_cons, List.destutter_cons_cons, List.destutter_cons']
  by_cases hsame : view (perform op s) = view s
  · rw [if_neg (not_not_intro hsame.symm), if_pos hsame, hsame]
  · rw [if_pos (Ne.symm hsame), if_neg hsame]

/-- **What a subscription hears is the course of what it is about.** If every operation that does
not end a subscription tells the listener what changed and keeps it subscribed, and those that end
it leave the listener silent, then the listener is told the history of the view up to the end of
the subscription, without repetitions. -/
theorem exists_told_performAll (Subscribed : State → Prop) {ends : Operation → Bool}
    (hstep : ∀ {s op}, s.Settled → Subscribed s → ends op = false →
      (perform op s).toldTo id = s.toldTo id ++ newsOf view news s (perform op s) ∧
        Subscribed (perform op s))
    (hend : ∀ {s op}, s.Settled → Subscribed s → ends op = true →
      (perform op s).toldTo id = s.toldTo id ∧ (perform op s).Silent id)
    (h : s.Settled) (hid : Subscribed s) {ops : List Operation}
    (hops : ∀ op ∈ ops, op.reactions = []) :
    ∃ told, (s.performAll ops).toldTo id = s.toldTo id ++ told.map news ∧
      view s :: told = course view (s.history (ops.takeWhile (!ends ·))) := by
  induction ops generalizing s with
  | nil => exact ⟨[], (List.append_nil _).symm, rfl⟩
  | cons op ops ih =>
    obtain ⟨hop, hops⟩ := List.forall_mem_cons.mp hops
    cases hends : ends op with
    | true =>
      obtain ⟨htold, hsilent⟩ := hend h hid hends
      refine ⟨[], ?_, ?_⟩
      · rw [performAll_cons, toldTo_performAll_of_silent (h.perform hop) hsilent hops, htold,
          List.map_nil, List.append_nil]
      · rw [List.takeWhile_cons_of_neg (by simp [hends])]
        rfl
    | false =>
      obtain ⟨htold, hsubscribed⟩ := hstep h hid hends
      obtain ⟨told, hlater, hcourse⟩ := ih (h.perform hop) hsubscribed hops
      rw [performAll_cons, hlater, htold, List.takeWhile_cons_of_pos (by simp [hends]),
        course_history_cons, ← hcourse, newsOf]
      by_cases hsame : view (perform op s) = view s
      · rw [if_pos hsame, if_pos hsame, hsame, List.append_nil]
        exact ⟨told, rfl, rfl⟩
      · rw [if_neg hsame, if_neg hsame]
        exact ⟨view (perform op s) :: told, by simp, rfl⟩

end run

/-! ### Who is subscribed -/

/-- A number hears the status after an operation if it did before and the operation does not end
that, or if the operation gives the number to a listener to the status. -/
theorem hearsStatus_perform_iff (h : s.Settled) (op : Operation) :
    (perform op s).hearsStatus id = true ↔ (s.hearsStatus id = true ∧ op.endsStatus id = false) ∨
      ((∃ name reactions, op = .subscribeStatus name reactions) ∧ id = s.listeners.length) := by
  simp only [hearsStatus_iff]
  cases op with
  | change c =>
    rw [perform_change_of_quiet h.quiet]
    simp [Operation.endsStatus]
  | subscribeStatus name reactions =>
    rw [perform_subscribeStatus]
    simp [Operation.endsStatus]
  | subscribeInSync name wanted reactions =>
    rw [perform_subscribeInSync]
    simp [Operation.endsStatus]
  | unsubscribeStatus ended =>
    rw [perform_unsubscribeStatus]
    simp [Operation.endsStatus]
  | unsubscribeInSync ended =>
    rw [perform_unsubscribeInSync]
    simp [Operation.endsStatus]

/-- A number hears of being in sync after an operation if it did before and the operation does not
end that, or if the operation gives the number to a listener to being in sync. -/
theorem hearsInSync_perform_iff (h : s.Settled) (op : Operation) :
    (perform op s).hearsInSync id = true ↔ (s.hearsInSync id = true ∧ op.endsInSync id = false) ∨
      ((∃ name wanted reactions, op = .subscribeInSync name wanted reactions) ∧
        id = s.listeners.length) := by
  simp only [hearsInSync_iff]
  cases op with
  | change c =>
    rw [perform_change_of_quiet h.quiet]
    simp [Operation.endsInSync]
  | subscribeStatus name reactions =>
    rw [perform_subscribeStatus]
    simp [Operation.endsInSync]
  | subscribeInSync name wanted reactions =>
    rw [perform_subscribeInSync]
    simp [Operation.endsInSync, or_and_right, exists_or, @eq_comm _ id]
  | unsubscribeStatus ended =>
    rw [perform_unsubscribeStatus]
    simp [Operation.endsInSync]
  | unsubscribeInSync ended =>
    rw [perform_unsubscribeInSync]
    constructor
    · rintro ⟨sub, hsub, rfl⟩
      obtain ⟨hmem, hne⟩ := List.mem_filter.mp hsub
      exact .inl ⟨⟨sub, hmem, rfl⟩, decide_eq_false (of_decide_eq_true hne)⟩
    · rintro (⟨⟨sub, hsub, rfl⟩, hne⟩ | ⟨⟨_, _, _, hother⟩, -⟩)
      · exact ⟨sub, List.mem_filter.mpr ⟨hsub, decide_eq_true (of_decide_eq_false hne)⟩, rfl⟩
      · cases hother

/-- **Who is subscribed**: whoever an operation gave a number as a subscriber, and no later
operation ended that. -/
theorem hears_performAll_iff (hears : State → Bool) {ends : Operation → Bool}
    {subscribes : Operation → Prop}
    (hstep : ∀ {s op}, s.Settled → (hears (perform op s) = true ↔
      (hears s = true ∧ ends op = false) ∨ (subscribes op ∧ id = s.listeners.length)))
    (h : s.Settled) {ops : List Operation} (hops : ∀ op ∈ ops, op.reactions = []) :
    hears (s.performAll ops) = true ↔ (hears s = true ∧ ∀ op ∈ ops, ends op = false) ∨
      ∃ earlier op later, ops = earlier ++ op :: later ∧ subscribes op ∧
        id = (s.performAll earlier).listeners.length ∧ ∀ op ∈ later, ends op = false := by
  induction ops generalizing s with
  | nil => simp
  | cons op ops ih =>
    obtain ⟨hop, hops⟩ := List.forall_mem_cons.mp hops
    rw [performAll_cons, ih (h.perform hop) hops, hstep h, or_and_right, or_assoc, and_assoc,
      List.forall_mem_cons]
    apply or_congr_right
    constructor
    · rintro (⟨⟨hsub, hid⟩, hlater⟩ | ⟨earlier, op', later, rfl, hsub, hid, hlater⟩)
      · exact ⟨[], op, ops, rfl, hsub, hid, hlater⟩
      · exact ⟨op :: earlier, op', later, rfl, hsub, hid, hlater⟩
    · rintro ⟨earlier, op', later, hsplit, hsub, hid, hlater⟩
      cases earlier with
      | nil =>
        obtain ⟨rfl, rfl⟩ := List.cons.inj hsplit
        exact .inl ⟨⟨hsub, hid⟩, hlater⟩
      | cons first earlier =>
        obtain ⟨rfl, rfl⟩ := List.cons.inj hsplit
        exact .inr ⟨earlier, op', later, rfl, hsub, hid, hlater⟩

/-! ### What is told is exact -/

/-- A number that was not given yet was told nothing. -/
theorem Enrolled.toldTo_eq_nil (h : s.Enrolled) (hid : s.listeners.length ≤ id) :
    s.toldTo id = [] := by
  apply newsFor_eq_nil
  intro n hn
  exact (Nat.lt_of_lt_of_le (h.noticed n hn) hid).ne

/-- Who ends its subscription to the status is silent. -/
theorem silent_of_endsStatus (h : s.Settled) (hid : id ∈ s.statusSubscriptions)
    (hends : op.endsStatus id = true) :
    (perform op s).toldTo id = s.toldTo id ∧ (perform op s).Silent id := by
  cases op with
  | unsubscribeStatus ended =>
    obtain rfl : id = ended := of_decide_eq_true hends
    rw [perform_unsubscribeStatus]
    refine ⟨rfl, h.enrolled.statusIssued id hid, by simp, ?_⟩
    rintro sub hsub rfl
    exact h.enrolled.apart sub hsub hid
  | _ => cases hends

/-- Who ends its subscription to being in sync is silent. -/
theorem silent_of_endsInSync (h : s.Settled) (hid : ∃ sub ∈ s.inSyncSubscriptions, sub.id = id)
    (hends : op.endsInSync id = true) :
    (perform op s).toldTo id = s.toldTo id ∧ (perform op s).Silent id := by
  obtain ⟨sub, hsub, rfl⟩ := hid
  cases op with
  | unsubscribeInSync ended =>
    obtain rfl : sub.id = ended := of_decide_eq_true hends
    rw [perform_unsubscribeInSync]
    refine ⟨rfl, h.enrolled.inSyncIssued sub hsub, h.enrolled.apart sub hsub, ?_⟩
    intro other hother
    exact of_decide_eq_true (List.mem_filter.mp hother).2
  | _ => cases hends

/-- **What a listener to the status is told**: the course of the status up to the end of its
subscription. -/
theorem exists_told_of_subscribeStatus (h : s.Settled) (name : String) {ops : List Operation}
    (hops : ∀ op ∈ ops, op.reactions = []) :
    let s₁ := perform (.subscribeStatus name []) s
    let id := s.listeners.length
    ∃ told, (s₁.performAll ops).toldTo id = told.map .status ∧
      s₁.status :: told = course status (s₁.history (ops.takeWhile (!·.endsStatus id))) := by
  intro s₁ id
  have hsubscribed : id ∈ s₁.statusSubscriptions := by
    simp [s₁, id, perform_subscribeStatus]
  have hnothing : s₁.toldTo id = [] := by
    rw [← h.enrolled.toldTo_eq_nil (Nat.le_refl _)]
    simp [s₁, id, perform_subscribeStatus, toldTo]
  obtain ⟨told, htold, hcourse⟩ := exists_told_performAll .status
    (fun s => id ∈ s.statusSubscriptions) toldTo_perform_of_hearsStatus
    silent_of_endsStatus (h.perform rfl) hsubscribed hops
  rw [hnothing, List.nil_append] at htold
  exact ⟨told, htold, hcourse⟩

/-- **What a listener to being in sync is told**: the course of being in sync at its tolerance up
to the end of its subscription. -/
theorem exists_told_of_subscribeInSync (h : s.Settled) (name : String) (wanted : Option UInt64)
    {ops : List Operation} (hops : ∀ op ∈ ops, op.reactions = []) :
    let s₁ := perform (.subscribeInSync name wanted []) s
    let id := s.listeners.length
    let t := wanted.getD s.tolerance
    ∃ told, (s₁.performAll ops).toldTo id = told.map .inSync ∧
      s₁.progress.inSync t :: told =
        course (·.progress.inSync t) (s₁.history (ops.takeWhile (!·.endsInSync id))) := by
  intro s₁ id t
  have hsubscribed : ∃ sub ∈ s₁.inSyncSubscriptions, sub.id = id ∧ sub.tolerance = t := by
    simp [s₁, id, t, perform_subscribeInSync]
  have hnothing : s₁.toldTo id = [] := by
    rw [← h.enrolled.toldTo_eq_nil (Nat.le_refl _)]
    simp [s₁, id, perform_subscribeInSync, toldTo]
  obtain ⟨told, htold, hcourse⟩ := exists_told_performAll .inSync
    (fun s => ∃ sub ∈ s.inSyncSubscriptions, sub.id = id ∧ sub.tolerance = t)
    toldTo_perform_of_hearsInSync
    (fun h hid => silent_of_endsInSync h (hid.imp fun _ hsub => ⟨hsub.1, hsub.2.1⟩))
    (h.perform rfl) hsubscribed hops
  rw [hnothing, List.nil_append] at htold
  exact ⟨told, htold, hcourse⟩

/-- Within one operation the status is told before who is in sync, and each in the order in which
the listeners subscribed. -/
theorem exists_notices_perform (h : s.Settled) (op : Operation) :
    ∃ statuses inSyncs, (perform op s).notices = s.notices ++ (statuses ++ inSyncs) ∧
      (∀ n ∈ statuses, ∃ status, n.news = .status status) ∧
      (∀ n ∈ inSyncs, ∃ inSync, n.news = .inSync inSync) ∧
      (statuses.map (·.listener)).Pairwise (· < ·) ∧
      (inSyncs.map (·.listener)).Pairwise (· < ·) := by
  cases op with
  | change c =>
    rw [perform_change_of_quiet h.quiet]
    refine ⟨_, _, rfl, ?_, ?_, ?_, ?_⟩
    · unfold statusNotices
      split
      · simp
      · simp
    · exact List.forall_mem_map.mpr fun _ _ => ⟨_, rfl⟩
    · unfold statusNotices
      split
      · exact .nil
      · rw [List.map_map]
        exact List.pairwise_map.mpr h.enrolled.statusAscending
    · unfold inSyncNotices
      rw [List.map_map]
      exact List.pairwise_map.mpr (h.enrolled.inSyncAscending.filter _)
  | subscribeStatus name reactions =>
    rw [perform_subscribeStatus]
    exact ⟨[], [], by simp⟩
  | subscribeInSync name wanted reactions =>
    rw [perform_subscribeInSync]
    exact ⟨[], [], by simp⟩
  | unsubscribeStatus ended =>
    rw [perform_unsubscribeStatus]
    exact ⟨[], [], by simp⟩
  | unsubscribeInSync ended =>
    rw [perform_unsubscribeInSync]
    exact ⟨[], [], by simp⟩

/-- **What listeners are told is exact.** Take any operations, none of which brings a reaction
along, on the sync state of a node that has not begun.

* A listener to the status is told the status after those operations that changed it, from its
  subscription, which gives it a number, to the end of that, each once and in order: together with
  the status at the subscription this is the history of the status without repetitions.
* A listener to being in sync is told the same way whether the node is in sync at its tolerance.
  So what it is told alternates, beginning with the contrary of what held at the subscription.
* Within one operation all notices of the status come before all others, and either kind comes in
  the order of the subscriptions.
* No number is given twice.
* Whoever ends a subscription is told that there was one exactly if the number was given to a
  subscriber of that kind and the subscription was not ended since; otherwise nothing changes, in
  particular where the number belongs to the other kind. -/
theorem listeners_told_exactly (tolerance : UInt64) (ops : List Operation)
    (hpassive : ∀ op ∈ ops, op.reactions = []) :
    let s := (initial tolerance).performAll ops
    (∀ earlier name later, ops = earlier ++ .subscribeStatus name [] :: later →
      let id := ((initial tolerance).performAll earlier).listeners.length
      let s₁ := (initial tolerance).performAll (earlier ++ [.subscribeStatus name []])
      ((initial tolerance).performAll earlier).receipt (.subscribeStatus name []) =
        .subscribed id ∧
      ∃ told, s.toldTo id = told.map .status ∧
        s₁.status :: told = course status (s₁.history (later.takeWhile (!·.endsStatus id)))) ∧
    (∀ earlier name wanted later, ops = earlier ++ .subscribeInSync name wanted [] :: later →
      let id := ((initial tolerance).performAll earlier).listeners.length
      let s₁ := (initial tolerance).performAll (earlier ++ [.subscribeInSync name wanted []])
      let t := wanted.getD tolerance
      ((initial tolerance).performAll earlier).receipt (.subscribeInSync name wanted []) =
        .subscribed id ∧
      ∃ told, s.toldTo id = told.map .inSync ∧
        s₁.progress.inSync t :: told =
          course (·.progress.inSync t) (s₁.history (later.takeWhile (!·.endsInSync id))) ∧
        (s₁.progress.inSync t :: told).IsChain (· ≠ ·)) ∧
    (∀ op, op.reactions = [] → ∃ statuses inSyncs,
      (perform op s).notices = s.notices ++ (statuses ++ inSyncs) ∧
      (∀ n ∈ statuses, ∃ status, n.news = .status status) ∧
      (∀ n ∈ inSyncs, ∃ inSync, n.news = .inSync inSync) ∧
      (statuses.map (·.listener)).Pairwise (· < ·) ∧
      (inSyncs.map (·.listener)).Pairwise (· < ·)) ∧
    ((initial tolerance).issued ops).Pairwise (· < ·) ∧
    (∀ id,
      (s.receipt (.unsubscribeStatus id) = .ended true ↔
        ∃ earlier op later, ops = earlier ++ op :: later ∧
        (∃ name reactions, op = .subscribeStatus name reactions) ∧
        id = ((initial tolerance).performAll earlier).listeners.length ∧
        ∀ op ∈ later, op.endsStatus id = false) ∧
      (s.receipt (.unsubscribeInSync id) = .ended true ↔
        ∃ earlier op later, ops = earlier ++ op :: later ∧
        (∃ name wanted reactions, op = .subscribeInSync name wanted reactions) ∧
        id = ((initial tolerance).performAll earlier).listeners.length ∧
        ∀ op ∈ later, op.endsInSync id = false) ∧
      (s.receipt (.unsubscribeStatus id) = .ended false →
        perform (.unsubscribeStatus id) s = s) ∧
      (s.receipt (.unsubscribeInSync id) = .ended false →
        perform (.unsubscribeInSync id) s = s) ∧
      ¬(s.receipt (.unsubscribeStatus id) = .ended true ∧
        s.receipt (.unsubscribeInSync id) = .ended true)) := by
  intro s
  have hinitial := Settled.initial tolerance
  have hsettled : s.Settled := hinitial.performAll hpassive
  have hsplit : ∀ {earlier op later}, ops = earlier ++ op :: later →
      ((initial tolerance).performAll earlier).Settled ∧
        ((initial tolerance).performAll earlier).tolerance = tolerance ∧
        (∀ op ∈ later, op.reactions = []) ∧
        s = (perform op ((initial tolerance).performAll earlier)).performAll later := by
    rintro earlier op later rfl
    obtain ⟨hearlier, hlater⟩ := List.forall_mem_append.mp hpassive
    exact ⟨hinitial.performAll hearlier, (hinitial.enrolled.performAll earlier).tolerance,
      (List.forall_mem_cons.mp hlater).2, performAll_append ..⟩
  refine ⟨?_, ?_, ?_, ?_, ?_⟩
  · intro earlier name later hops id s₁
    obtain ⟨hearlier, -, hlater, hs⟩ := hsplit hops
    have hs₁ : s₁ = perform (.subscribeStatus name []) ((initial tolerance).performAll earlier) :=
      performAll_append ..
    rw [hs, hs₁]
    exact ⟨rfl, exists_told_of_subscribeStatus hearlier name hlater⟩
  · intro earlier name wanted later hops id s₁ t
    obtain ⟨hearlier, htolerance, hlater, hs⟩ := hsplit hops
    have hs₁ : s₁ = perform (.subscribeInSync name wanted [])
        ((initial tolerance).performAll earlier) := performAll_append ..
    obtain ⟨told, htold, hcourse⟩ := exists_told_of_subscribeInSync hearlier name wanted hlater
    rw [htolerance] at hcourse
    rw [hs, hs₁]
    refine ⟨rfl, told, htold, hcourse, ?_⟩
    rw [hcourse]
    exact List.isChain_destutter ..
  · intro op _
    exact exists_notices_perform hsettled op
  · exact pairwise_issued hinitial.enrolled ops
  · intro id
    simp only [receipt_unsubscribeStatus_iff, receipt_unsubscribeInSync_iff]
    refine ⟨?_, ?_, perform_unsubscribeStatus_of_not_hears, perform_unsubscribeInSync_of_not_hears,
      ?_⟩
    · rw [hears_performAll_iff (·.hearsStatus id) (fun h => hearsStatus_perform_iff h _) hinitial
        hpassive]
      exact or_iff_right fun hnone => by simp [hearsStatus, initial] at hnone
    · rw [hears_performAll_iff (·.hearsInSync id) (fun h => hearsInSync_perform_iff h _) hinitial
        hpassive]
      exact or_iff_right fun hnone => by simp [hearsInSync, initial] at hnone
    · rintro ⟨hstatus, hinSync⟩
      rw [hsettled.enrolled.hearsStatus_eq_false hinSync] at hstatus
      cases hstatus

/-! ### A run with three listeners -/

/-- Two listeners to being in sync, one of them without patience, and one to the status; the node
catches up, the impatient one leaves, and the node falls behind. -/
def watched : List Operation :=
  [.subscribeInSync "impatient" (some 0) [], .subscribeInSync "patient" none [],
    .subscribeStatus "status" [], .change (.best 100), .change (.localHead 98),
    .change .initialDone, .change (.localHead 100), .unsubscribeInSync 0, .change (.best 200)]

/-- The patient listener hears both changes, each once and in turn. -/
theorem listeners_told_exactly_of_watched :
    (∀ op ∈ watched, op.reactions = []) ∧
    ((initial 5).performAll watched).toldTo 0 = [.inSync true] ∧
    ((initial 5).performAll watched).toldTo 1 = [.inSync true, .inSync false] ∧
    ∃ told : List Bool, [.inSync true, .inSync false] = told.map News.inSync ∧
      (false :: told).IsChain (· ≠ ·) := by
  have hpassive : ∀ op ∈ watched, op.reactions = [] := by
    simp [watched, Operation.reactions]
  have htold : ((initial 5).performAll watched).toldTo 1 = [.inSync true, .inSync false] := by
    decide
  obtain ⟨-, told, hmap, -, hchain⟩ := (listeners_told_exactly 5 watched hpassive).2.1
    [.subscribeInSync "impatient" (some 0) []] "patient" none _ rfl
  refine ⟨hpassive, by decide, htold, told, ?_, hchain⟩
  rw [← htold]
  exact hmap

end State

end ExecutionNode.Sync
