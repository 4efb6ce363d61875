import ExecutionNode.Proofs.Sync.Confined
import ExecutionNode.Proofs.Sync.Kept

/-!
# An attempt to catch up, step by step

An attempt may end at every step, well or with an error, or be stopped or left there.  What the
store keeps, what was published and what is being downloaded must agree at all of these moments, for
whoever comes next has nothing else to go by.

* `Attempt` is an attempt of a downloader together with what the store keeps; `Attempt.Moment` is
  whatever may happen to it, in any order.
* `CatchUp.Course.requests`: a step that asks for downloads does so last, once it has a pivot block.
* `Attempt.Steady` is the invariant of all histories: what a steady attempt asks for is kept then,
  and published (`Attempt.Steady.requests_newCalls`).
* `Attempt.received_after` tells what an attempt received before it ended well, and
  `Attempt.askedNothing_of_forgoes` that one without a pivot block asks for nothing.
* `Attempt.crash_consistent` puts this together.
-/

namespace ExecutionNode.Sync

/-! ### Heights -/

/-- A change of the progress touches neither the best height nor the local head. -/
def Progress.Change.Bystander : Progress.Change → Prop
  | .best _ => False
  | .localHead _ => False
  | _ => True

/-- A bystander leaves the heights. -/
theorem Progress.Change.Bystander.after {c : Progress.Change} (h : c.Bystander) (p : Progress) :
    (p.after c).best = p.best ∧ (p.after c).localHead = p.localHead := by
  cases c with
  | best _ => exact h.elim
  | localHead _ => exact h.elim
  | _ => exact ⟨rfl, rfl⟩

/-- What holds of the best height is kept by bystanders. -/
theorem Progress.Change.Bystander.keeps_best (best : UInt64) (p : Progress) (c : Progress.Change)
    (h : c.Bystander) (hp : p.best = best) : (p.after c).best = best :=
  (h.after p).1.trans hp

/-- What holds of the local head is kept by bystanders. -/
theorem Progress.Change.Bystander.keeps_localHead (head : UInt64) (p : Progress)
    (c : Progress.Change) (h : c.Bystander) (hp : p.localHead = head) :
    (p.after c).localHead = head :=
  (h.after p).2.trans hp

/-! ### What a step asks for -/

/-- The pivot block at which a call asks for the chain or the world state. -/
def Call.downloads? : Call → Option SealedHeader
  | importToPivot _ pivot => some pivot
  | downloadState pivot _ => some pivot
  | _ => none

/-- A call that asks for a download concerns the pivot block, and stores nothing. -/
theorem Call.of_downloads? {c : Call} {pivot : SealedHeader} (h : c.downloads? = some pivot) :
    c.concernsPivot = true ∧ c.change? = none ∧
      ∀ (r : Replies) (kept : Option SealedHeader), c.stores r kept = kept := by
  cases c with
  | importToPivot _ _ => exact ⟨rfl, rfl, fun _ _ => rfl⟩
  | downloadState _ _ => exact ⟨rfl, rfl, fun _ _ => rfl⟩
  | _ => cases h

namespace CatchUp

/-- By an event an attempt is left without a pivot block: the kept one cannot be read, none was
chosen, or the one that was chosen cannot be kept. -/
inductive Forgoes (c : CatchUp) (r : Replies) : Stage → Event → Prop where
  /-- The kept one cannot be read. -/
  | unread (hresync : c.resync = false) {f : Fault} (hload : r.load = .error f) :
      Forgoes c r .fresh .begun
  /-- None was found. -/
  | unselected (e : PivotError) : Forgoes c r .selecting (.selected (.error e))
  /-- Whoever was to choose it broke down. -/
  | unanswered : Forgoes c r .selecting .panicked
  /-- The one that was chosen cannot be kept. -/
  | unkept (pivot : SealedHeader) {f : Fault} (hsave : r.save = .error f) :
      Forgoes c r .selecting (.selected (.ok pivot))

/-- An attempt does not have its pivot block yet. -/
def Stage.IsEarly : Stage → Prop
  | .downloading .. => False
  | _ => True

/-- Calls ask for downloads at a pivot block, from the trusted block on. -/
def Requesting (c : CatchUp) (pivot : SealedHeader) (calls : List Call) : Prop :=
  ∀ call ∈ calls, call = .importToPivot c.startBlock pivot ∨
    call = .downloadState pivot c.stateMethod

variable {c : CatchUp} {r : Replies} {b : Logbook} {best : UInt64} {arming : Nat} {stage : Stage}
  {event : Event} {calls : List Call} {turn : Turn Stage SealedHeader} {pivot : SealedHeader}
  {lead : Call}

/-- Who asks for a download at a pivot block does so. -/
theorem Requesting.downloads? (h : c.Requesting pivot calls) :
    ∀ call ∈ calls, call.downloads? = some pivot := by
  intro call hcall
  rcases h call hcall with rfl | rfl
  · rfl
  · rfl

/-- To ask for downloads does not reach the store. -/
theorem Requesting.foldl_stores (h : c.Requesting pivot calls) (r : Replies)
    (kept : Option SealedHeader) : calls.foldl (Call.stores r) kept = kept := by
  refine List.foldlRecOn (motive := (· = kept)) calls _ rfl fun stored hstored call hcall => ?_
  exact ((Call.of_downloads? (h.downloads? call hcall)).2.2 r stored).trans hstored

/-- Who asks for the chain at a pivot block asks for it from the trusted block on. -/
theorem Requesting.startBlock (h : c.Requesting pivot calls) {first : Option BlockId}
    {other : SealedHeader} (hcall : .importToPivot first other ∈ calls) : first = c.startBlock := by
  rcases h _ hcall with heq | heq
  · exact (Call.importToPivot.inj heq).1
  · cases heq

/-- A pivot block passes exactly if it does not lie before the trusted block. -/
theorem passes_iff : c.checkpoint.filter (pivot.number < ·.number) = none ↔
    ∀ trusted ∈ c.checkpoint, trusted.number ≤ pivot.number := by
  simp only [Option.filter_eq_none_iff, Option.mem_def, decide_eq_true_eq, UInt64.not_lt]

/-- An attempt has its pivot block by a call that asks for nothing there. -/
theorem Acquires.downloads?_eq_none (h : c.Acquires r pivot stage event lead) :
    lead.downloads? = none := by
  cases h <;> rfl

/-- An attempt asks for nothing at its pivot block when it has and publishes it. -/
theorem Acquires.downloads?_of_mem (h : c.Acquires r pivot stage event lead) {call : Call}
    (hcall : call ∈ lead :: publishing best pivot) : call.downloads? = none := by
  rcases List.mem_cons.mp hcall with rfl | hcall
  · exact h.downloads?_eq_none
  · unfold publishing at hcall
    split at hcall
    · obtain rfl := List.mem_singleton.mp hcall
      rfl
    · cases hcall

/-- Whoever is left without a pivot block has none. -/
theorem Forgoes.not_acquires (h : c.Forgoes r stage event) :
    ¬ c.Acquires r pivot stage event lead := by
  intro h'
  cases h' with
  | takenUp _ hload => cases h with | unread _ hload' => rw [hload] at hload'; cases hload'
  | chosen hsave => cases h with | unkept _ hsave' => rw [hsave] at hsave'; cases hsave'

/-- Whoever is left without a pivot block has none yet. -/
theorem Forgoes.isEarly (h : c.Forgoes r stage event) : stage.IsEarly := by
  cases h <;> trivial

/-- Who has the settings of a downloader is left without a pivot block as that is. -/
theorem Forgoes.of_settings {c' : CatchUp} (h : c.Forgoes r stage event)
    (hsettings : c'.settings = c.settings) : c'.Forgoes r stage event := by
  cases h with
  | unread hkeeps hload =>
    exact .unread ((congrArg CatchUp.Settings.resync hsettings).trans hkeeps) hload
  | unselected e => exact .unselected e
  | unanswered => exact .unanswered
  | unkept pivot hsave => exact .unkept pivot hsave

/-- **A step that asks for downloads** does so last, once it has a pivot block that does not lie
before the trusted block. -/
theorem Course.requests (h : c.Course r best arming stage event calls turn) :
    (∀ call ∈ calls, call.downloads? = none) ∨
      ∃ pivot lead requests, c.Acquires r pivot stage event lead ∧
        c.checkpoint.filter (pivot.number < ·.number) = none ∧
        calls = lead :: publishing best pivot ++ requests ∧ c.Requesting pivot requests := by
  cases h with
  | downloads h hpassed =>
    exact .inr ⟨_, _, _, h, hpassed, rfl, by simp [Requesting]⟩
  | unanswered h hpassed =>
    exact .inr ⟨_, _, _, h, hpassed, rfl, by simp [Requesting]⟩
  | refuses h => exact .inl (List.forall_mem_singleton.mpr h.downloads?_eq_none)
  | _ => exact .inl (by simp [Call.downloads?])

/-- **An attempt without a pivot block** is over, and asks for nothing. -/
theorem Course.of_forgoes (hcourse : c.Course r best arming stage event calls turn)
    (h : c.Forgoes r stage event) :
    (∀ call ∈ calls, call.downloads? = none) ∧ ∀ stage', turn ≠ .waiting stage' := by
  constructor
  · rcases hcourse.requests with hnone | ⟨_, _, _, hacquires, -⟩
    · exact hnone
    · exact absurd hacquires h.not_acquires
  · rintro stage' rfl
    cases hcourse with
    | waits hidle => cases h <;> cases hidle
    | unstopped => cases h
    | startsOver hresync => cases h with | unread h' => rw [hresync] at h'; cases h'
    | findsNone _ hload => cases h with | unread _ h' => rw [hload] at h'; cases h'
    | downloads h' => exact h.not_acquires h'
    | unanswered _ _ _ hfailed => exact Failure.turn_ne_waiting _ _ hfailed.symm
    | receives h' => cases h' <;> cases h

/-- An attempt that does not have its pivot block yet did not have it before, and it neither asked
for anything nor kept anything. -/
theorem Course.of_isEarly {stage' : Stage}
    (hcourse : c.Course r best arming stage event calls (.waiting stage')) (h : stage'.IsEarly) :
    stage.IsEarly ∧ (∀ call ∈ calls, call.downloads? = none) ∧
      ∀ (r' : Replies) (kept : Option SealedHeader), calls.foldl (Call.stores r') kept = kept := by
  cases hcourse with
  | waits => exact ⟨h, List.forall_mem_nil _, fun _ _ => rfl⟩
  | unstopped => exact ⟨h, List.forall_mem_nil _, fun _ _ => rfl⟩
  | startsOver => exact ⟨trivial, by simp [Call.downloads?], fun _ _ => rfl⟩
  | findsNone => exact ⟨trivial, by simp [Call.downloads?], fun _ _ => rfl⟩
  | downloads => exact h.elim
  | unanswered _ _ _ hfailed => exact absurd hfailed.symm (Failure.turn_ne_waiting _ _)
  | receives => exact h.elim

/-- At a turn an attempt has this much of what it needs at its pivot block. -/
inductive Has (pivot : SealedHeader) : Turn Stage SealedHeader → Bool → Bool → Prop where
  /-- It waits for the rest. -/
  | some (chainDone stateDone : Bool) :
      Has pivot (.waiting (.downloading pivot chainDone stateDone)) chainDone stateDone
  /-- It ended well. -/
  | all : Has pivot (.ended (.ok pivot)) true true

/-- What an attempt has it had before, or received just now, unless it only begins to download. -/
theorem Course.of_has {chainDone stateDone : Bool}
    (hcourse : c.Course r best arming stage event calls turn)
    (h : Has pivot turn chainDone stateDone) :
    (chainDone = false ∧ stateDone = false) ∨ stage = .downloading pivot chainDone stateDone ∨
      Receives pivot stage event chainDone stateDone := by
  cases h with
  | some =>
    cases hcourse with
    | waits => exact .inr (.inl rfl)
    | unstopped => exact .inr (.inl rfl)
    | downloads => exact .inl ⟨rfl, rfl⟩
    | unanswered _ _ _ hfailed => exact absurd hfailed.symm (Failure.turn_ne_waiting _ _)
    | receives h => exact .inr (.inr h)
  | all =>
    obtain ⟨-, hnone⟩ | ⟨p, hreceives, -, hturn⟩ := hcourse.prepares_or_completes
    · exact absurd rfl (hnone pivot)
    · cases hturn
      exact .inr (.inr hreceives)

/-! ### What a step does to the heights -/

/-- The local head at a turn of an attempt: that of the pivot block if the attempt ended well, else
the one before. -/
def headAt (before : UInt64) : Turn Stage SealedHeader → UInt64
  | .ended (.ok pivot) => pivot.number
  | _ => before

/-- Unless an attempt ended well the local head is the one before. -/
theorem headAt_of_ne (before : UInt64) (h : ∀ pivot, turn ≠ .ended (.ok pivot)) :
    headAt before turn = before := by
  unfold headAt
  split
  · exact absurd rfl (h _)
  · rfl

/-- **An attempt sets the local head when it ends well**, and only then. -/
theorem localHead_resume (c : CatchUp) (r : Replies) {b : Logbook}
    (h : b.state.Confined Progress.Change.Bystander) (arming : Nat) (stage : Stage)
    (event : Event) :
    let o := c.resume r b arming stage event
    o.book.state.Confined Progress.Change.Bystander ∧
      o.book.state.progress.localHead = headAt b.state.progress.localHead o.turn := by
  intro o
  obtain ⟨calls, hbook, hcourse⟩ : c.Takes r b arming stage event o := c.course_resume r b ..
  rw [hbook]
  obtain ⟨hprepares, hnone⟩ | ⟨pivot, -, rfl, hturn⟩ := hcourse.prepares_or_completes
  · rw [headAt_of_ne _ hnone]
    refine Logbook.confined_make (Progress.Change.Bystander.keeps_localHead _) h rfl ?_
    intro change hchange p hp
    have hbest := hprepares _ hchange
    cases change with
    | best _ => exact hp
    | _ => cases hbest
  · rw [hturn]
    exact Logbook.confined_change (Progress.Change.Bystander.keeps_localHead _) h rfl

/-- **A pivot block that is published** leaves the best height at least as high. -/
theorem best_publishing (h : b.state.Confined Progress.Change.Bystander)
    (hlead : lead.change? = none) :
    (b.make (lead :: publishing b.state.progress.best pivot)).state.progress.best =
      max b.state.progress.best pivot.number := by
  have hled : b.make [lead] = { b with calls := b.calls ++ [lead] } :=
    b.make_eq (List.forall_mem_singleton.mpr hlead)
  rw [← List.singleton_append, b.make_append, hled]
  unfold publishing
  show _ = if b.state.progress.best ≤ pivot.number then pivot.number else b.state.progress.best
  split
  next hlt =>
    rw [if_pos (UInt64.le_of_lt hlt)]
    exact (Logbook.confined_change (b := { b with calls := b.calls ++ [lead] })
      (Progress.Change.Bystander.keeps_best _) h rfl).2
  next hge =>
    show b.state.progress.best = _
    split
    next hle => exact UInt64.le_antisymm hle (UInt64.not_lt.mp hge)
    · rfl

/-- A pivot block that an attempt has is kept, if the store gives back what it keeps. -/
theorem Acquires.stores (h : c.Acquires r pivot stage event lead) {kept : Option SealedHeader}
    (hload : ∀ found, r.load = .ok found → found = kept) : lead.stores r kept = some pivot := by
  cases h with
  | takenUp _ hfound => exact (hload _ hfound).symm
  | chosen hsave =>
    unfold Call.stores
    dsimp only
    rw [hsave]

/-- To publish it then leaves it kept. -/
theorem Acquires.foldl_stores (h : c.Acquires r pivot stage event lead) {kept : Option SealedHeader}
    (hload : ∀ found, r.load = .ok found → found = kept) (best : UInt64) :
    (lead :: publishing best pivot).foldl (Call.stores r) kept = some pivot := by
  have hlone : (lead :: publishing best pivot ++ []).filter Call.concernsPivot = [lead] :=
    h.filter_concernsPivot rfl
  rw [List.append_nil] at hlone
  rw [← Call.foldl_stores_filter, hlone]
  exact h.stores hload

/-- What occurs in a row, but not in its first part, occurs in the rest of it. -/
theorem exists_mid_of_append_eq {α : Type} {first rest before later : List α} {x : α}
    (h : first ++ rest = before ++ x :: later) (hx : x ∉ first) :
    ∃ mid, before = first ++ mid ∧ rest = mid ++ x :: later := by
  rcases List.append_eq_append_iff.mp h with ⟨mid, hbefore, hrest⟩ | ⟨mid, hfirst, hlater⟩
  · exact ⟨mid, hbefore, hrest⟩
  · cases mid with
    | nil =>
      rw [List.append_nil] at hfirst
      exact ⟨[], by rw [hfirst, List.append_nil], hlater.symm⟩
    | cons y mid =>
      obtain ⟨rfl, -⟩ := List.cons.inj hlater
      exact absurd (by rw [hfirst]; simp) hx

/-- **What a step asks for is kept then**: the calls before it left the store with the pivot block,
which is published and does not lie before the trusted block, and the calls after it ask for
downloads there as well. -/
theorem requests_resume (h : b.state.Confined Progress.Change.Bystander)
    {kept : Option SealedHeader} (hload : ∀ found, r.load = .ok found → found = kept)
    {before later : List Call} {call : Call}
    (hnew : (c.resume r b arming stage event).book.calls = b.calls ++ (before ++ call :: later))
    (hcall : call.downloads? = some pivot) :
    before.foldl (Call.stores r) kept = some pivot ∧
      c.checkpoint.filter (pivot.number < ·.number) = none ∧
      c.Requesting pivot (call :: later) ∧
      (c.resume r b arming stage event).book.state.progress.best =
        max b.state.progress.best pivot.number := by
  obtain ⟨calls, hbook, hcourse⟩ := c.course_resume r b arming stage event
  rw [hbook] at hnew ⊢
  rcases hcourse.requests with hnone | ⟨p, lead, requests, hacquires, hpassed, rfl, hrequests⟩
  · exfalso
    obtain ⟨new, hcalls, hkind, -⟩ := b.exists_new_make calls
    obtain rfl := List.append_cancel_left (hcalls.symm.trans hnew)
    rcases hkind call (by simp) with hmem | ⟨n, rfl⟩
    · rw [hnone call hmem] at hcall
      cases hcall
    · cases hcall
  · obtain ⟨led, hled, hkind, honly⟩ :=
      b.exists_new_make (lead :: publishing b.state.progress.best p)
    have hquiet : call ∉ led := fun hmem => by
      rcases hkind call hmem with hmem | ⟨n, rfl⟩
      · rw [hacquires.downloads?_of_mem hmem] at hcall
        cases hcall
      · cases hcall
    have hasks : ∀ x ∈ requests, x.change? = none := fun x hx =>
      (Call.of_downloads? (hrequests.downloads? x hx)).2.1
    rw [b.make_append, Logbook.make_eq _ hasks] at hnew ⊢
    rw [hled, List.append_assoc] at hnew
    obtain ⟨mid, rfl, rfl⟩ := exists_mid_of_append_eq (List.append_cancel_left hnew) hquiet
    obtain rfl : p = pivot := by
      have hsame := hrequests.downloads? call (by simp)
      rw [hcall] at hsame
      exact (Option.some.inj hsame).symm
    have hlead : lead.change? = none := by
      cases hacquires <;> rfl
    refine ⟨?_, hpassed, fun x hx => hrequests x (List.mem_append_right _ hx),
      best_publishing h hlead⟩
    have hfirst : led.foldl (Call.stores r) kept = some p := by
      rw [← Call.foldl_stores_filter, honly _ fun _ => rfl, Call.foldl_stores_filter]
      exact hacquires.foldl_stores hload _
    have hmid : c.Requesting p mid := fun x hx => hrequests x (List.mem_append_left _ hx)
    rw [List.foldl_append, hfirst, hmid.foldl_stores]

end CatchUp

/-! ### Attempts -/

/-- An attempt of a downloader, and what the store keeps meanwhile. -/
structure Attempt where
  /-- The downloader. -/
  catchUp : CatchUp
  /-- What was done, and the sync state. -/
  book : Logbook
  /-- The arming of the stop signal that belongs to the attempt. -/
  arming : Nat
  /-- How far the attempt is. -/
  turn : Turn CatchUp.Stage SealedHeader
  /-- The pivot block that the store keeps. -/
  kept : Option SealedHeader

/-- What can happen to an attempt. -/
inductive Attempt.Moment where
  /-- It goes on after an event. -/
  | stepped (r : Replies) (event : Event)
  /-- Its downloader is stopped. -/
  | stopped
  /-- Its downloader is started once more. -/
  | restarted
  /-- Somebody else operates on the sync state. -/
  | operated (op : Operation)

namespace Attempt

/-- An attempt begins, and this is kept. -/
def begin (c : CatchUp) (b : Logbook) (kept : Option SealedHeader) : Attempt :=
  ⟨c.start, b, c.start.signal.arms, .waiting .fresh, kept⟩

variable (a : Attempt)

/-- An attempt goes on after an event, unless it is over. -/
def step (r : Replies) (event : Event) : Attempt :=
  match a.turn with
  | .waiting stage =>
    let o := a.catchUp.resume r a.book a.arming stage event
    { a with
      catchUp := o.catchUp
      book := o.book
      turn := o.turn
      kept := (o.book.calls.drop a.book.calls.length).foldl (Call.stores r) a.kept }
  | _ => a

/-- An attempt after something happened to it. -/
def act : Moment → Attempt
  | .stepped r event => a.step r event
  | .stopped => { a with catchUp := a.catchUp.stop }
  | .restarted => { a with catchUp := a.catchUp.start }
  | .operated op => { a with book := a.book.perform op }

/-- An attempt after a history. -/
def after (h : List Moment) : Attempt := h.foldl act a

/-- The calls of an attempt as it goes on after an event. -/
def newCalls (r : Replies) (event : Event) : List Call :=
  (a.step r event).book.calls.drop a.book.calls.length

/-- Whatever happens in a history has a property when it happens. -/
def Along (P : Attempt → Moment → Prop) (a : Attempt) : List Moment → Prop
  | [] => True
  | m :: h => P a m ∧ (a.act m).Along P h

/-- Nobody else writes: the store gives back what it keeps, and whoever operates on the sync state
announces a best height or leaves the heights to others. -/
def Undisturbed (a : Attempt) : Moment → Prop
  | .stepped r _ => ∀ found, r.load = .ok found → found = a.kept
  | .operated op =>
    (∃ height, op = .change (.best height)) ∨ op.Confined Progress.Change.Bystander
  | _ => True

/-- While an attempt waited for downloads at a pivot block, it received something that was missing
by an event. -/
def Received (start : Attempt) (h : List Moment) (pivot : SealedHeader) (event : Event) : Prop :=
  ∃ past r rest stage chainDone stateDone, h = past ++ .stepped r event :: rest ∧
    (start.after past).turn = .waiting stage ∧
    CatchUp.Receives pivot stage event chainDone stateDone

variable {a} {r : Replies} {event : Event} {stage : CatchUp.Stage} {h : List Moment}

theorem after_concat (a : Attempt) (h : List Moment) (m : Moment) :
    a.after (h ++ [m]) = (a.after h).act m :=
  List.foldl_concat ..

theorem after_append (a : Attempt) (h rest : List Moment) :
    a.after (h ++ rest) = (a.after h).after rest :=
  List.foldl_append

/-- What has a property all along has it in both parts. -/
theorem along_append {P : Attempt → Moment → Prop} {rest : List Moment} :
    a.Along P (h ++ rest) ↔ a.Along P h ∧ (a.after h).Along P rest := by
  induction h generalizing a with
  | nil => exact ⟨fun hh => ⟨trivial, hh⟩, fun hh => hh.2⟩
  | cons m h ih =>
    rw [List.cons_append, Along, Along, ih, and_assoc]
    rfl

/-- An attempt that waits goes on as its downloader does. -/
theorem step_of_waiting (hturn : a.turn = .waiting stage) (r : Replies) (event : Event) :
    let o := a.catchUp.resume r a.book a.arming stage event
    a.step r event = { a with
      catchUp := o.catchUp
      book := o.book
      turn := o.turn
      kept := (a.newCalls r event).foldl (Call.stores r) a.kept } := by
  unfold newCalls step
  rw [hturn]

/-- An attempt that is over does not go on. -/
theorem step_of_over (hturn : ∀ stage, a.turn ≠ .waiting stage) (r : Replies) (event : Event) :
    a.step r event = a := by
  unfold step
  split
  next h => exact absurd h (hturn _)
  · rfl

/-- What an attempt does as it goes on comes in addition. -/
theorem calls_step (a : Attempt) (r : Replies) (event : Event) :
    (a.step r event).book.calls = a.book.calls ++ a.newCalls r event := by
  have hnew {calls : List Call} (hcalls : (a.step r event).book.calls = a.book.calls ++ calls) :
      (a.step r event).book.calls = a.book.calls ++ a.newCalls r event := by
    rw [newCalls, hcalls, List.drop_left]
  cases hturn : a.turn with
  | waiting stage =>
    obtain ⟨new, hcalls, -⟩ :=
      (a.catchUp.extends_resume r a.book a.arming stage event).exists_new
    exact hnew (by rw [step_of_waiting hturn]; exact hcalls)
  | _ =>
    have hsame : (a.step r event).book.calls = a.book.calls ++ [] := by
      rw [step_of_over (by simp [hturn]), List.append_nil]
    exact hnew hsame

/-- An attempt takes its course as it goes on. -/
theorem course_step (hturn : a.turn = .waiting stage) (r : Replies) (event : Event) :
    ∃ calls, (a.step r event).book = a.book.make calls ∧
      a.catchUp.Course r a.book.state.progress.best a.arming stage event calls
        (a.step r event).turn := by
  rw [step_of_waiting hturn]
  exact a.catchUp.course_resume r a.book a.arming stage event

/-- Only to go on moves an attempt. -/
theorem turn_act {m : Moment} (hm : ∀ r event, m ≠ .stepped r event) (a : Attempt) :
    (a.act m).turn = a.turn := by
  cases m with
  | stepped r event => exact absurd rfl (hm r event)
  | _ => rfl

/-! ### What holds all along -/

/-- Whatever happens to an attempt, its downloader has the settings of the beginning, listeners
leave the heights to others, and the local head is set when it ends well and only then. -/
structure Steady (c : CatchUp) (b : Logbook) (a : Attempt) : Prop where
  /-- The settings are as they were. -/
  settings : a.catchUp.settings = c.settings
  /-- Listeners leave the heights to others. -/
  bystanding : a.book.state.Confined Progress.Change.Bystander
  /-- The local head is the one before unless the attempt ended well. -/
  localHead : a.book.state.progress.localHead =
    CatchUp.headAt b.state.progress.localHead a.turn

variable {c : CatchUp} {b : Logbook} {kept : Option SealedHeader}

/-- **What happens to an attempt leaves it steady**, if nobody else writes. -/
theorem Steady.act (h : a.Steady c b) {m : Moment} (hm : Undisturbed a m) :
    (a.act m).Steady c b := by
  cases m with
  | stepped r event =>
    show (a.step r event).Steady c b
    cases hturn : a.turn with
    | waiting stage =>
      obtain ⟨hbystanding, hhead⟩ :=
        a.catchUp.localHead_resume r h.bystanding a.arming stage event
      rw [step_of_waiting hturn]
      refine ⟨(a.catchUp.settings_resume r _ _ _ _).trans h.settings, hbystanding, ?_⟩
      rw [hhead, h.localHead, hturn]
      rfl
    | _ => rwa [step_of_over (by simp [hturn])]
  | stopped => exact ⟨h.settings, h.bystanding, h.localHead⟩
  | restarted => exact ⟨h.settings, h.bystanding, h.localHead⟩
  | operated op =>
    have hkeeps := Progress.Change.Bystander.keeps_localHead a.book.state.progress.localHead
    obtain ⟨hbystanding, hhead⟩ : (a.book.perform op).state.Confined Progress.Change.Bystander ∧
        (a.book.perform op).state.progress.localHead = a.book.state.progress.localHead := by
      rcases hm with ⟨height, rfl⟩ | hop
      · exact State.Confined.perform_change (s := { a.book.state with notices := [] }) hkeeps
          h.bystanding rfl
      · exact Logbook.confined_perform hkeeps hop h.bystanding rfl
    exact ⟨h.settings, hbystanding, hhead.trans h.localHead⟩

/-- **An attempt is steady after every history in which nobody else writes.** -/
theorem Steady.after (ha : a.Steady c b) (hh : a.Along Undisturbed h) :
    (a.after h).Steady c b := by
  induction h generalizing a with
  | nil => exact ha
  | cons m h ih => exact ih (ha.act hh.1) hh.2

/-- **What a steady attempt asks for is kept then**: the calls before it left the store with the
pivot block, which does not lie before the trusted block and is published.  The chain is asked for
from the trusted block on, and nothing but requests at that pivot block comes after it. -/
theorem Steady.requests_newCalls (ha : a.Steady c b)
    (hload : ∀ found, r.load = .ok found → found = a.kept) {before later : List Call} {call : Call}
    (hnew : a.newCalls r event = before ++ call :: later) {pivot : SealedHeader}
    (hcall : call.downloads? = some pivot) :
    before.foldl (Call.stores r) a.kept = some pivot ∧
      (∀ trusted ∈ c.checkpoint, trusted.number ≤ pivot.number) ∧
      (∀ first p, call = .importToPivot first p →
        first = c.checkpoint.map fun trusted => ⟨trusted.number, trusted.hash⟩) ∧
      (∀ other ∈ later, other.downloads? = some pivot) ∧
      (a.step r event).book.state.progress.best =
        max a.book.state.progress.best pivot.number := by
  cases hturn : a.turn with
  | waiting stage =>
    have hcalls := a.calls_step r event
    rw [hnew, step_of_waiting hturn] at hcalls
    obtain ⟨hkept, hpassed, hrequesting, hbest⟩ :=
      CatchUp.requests_resume ha.bystanding hload hcalls hcall
    have hcheckpoint : a.catchUp.checkpoint = c.checkpoint :=
      congrArg CatchUp.Settings.checkpoint ha.settings
    refine ⟨hkept, hcheckpoint ▸ CatchUp.passes_iff.mp hpassed, ?_, fun other hother =>
      hrequesting.downloads? other (List.mem_cons_of_mem _ hother), ?_⟩
    · rintro first p rfl
      rw [hrequesting.startBlock List.mem_cons_self, CatchUp.startBlock, hcheckpoint]
    · rw [step_of_waiting hturn]
      exact hbest
  | _ =>
    rw [newCalls, step_of_over (by simp [hturn]), List.drop_length] at hnew
    simp at hnew

/-- An attempt begins steady. -/
theorem steady_begin (hb : b.state.Confined Progress.Change.Bystander) :
    (begin c b kept).Steady c b := ⟨rfl, hb, rfl⟩

/-- An attempt asked for no downloads since it had this logbook. -/
def AskedNothing (b : Logbook) (a : Attempt) : Prop :=
  ∃ new, a.book.calls = b.calls ++ new ∧ ∀ call ∈ new, call.downloads? = none

/-- An attempt that asks for no downloads as it goes on asked for none still. -/
theorem AskedNothing.step (ha : a.AskedNothing b) {r : Replies} {event : Event}
    (hturn : a.turn = .waiting stage)
    (hnone : ∀ calls, a.catchUp.Course r a.book.state.progress.best a.arming stage event calls
      (a.step r event).turn → ∀ call ∈ calls, call.downloads? = none) :
    (a.step r event).AskedNothing b := by
  obtain ⟨old, hold, hquiet⟩ := ha
  obtain ⟨calls, hbook, hcourse⟩ := course_step hturn r event
  obtain ⟨new, hnew, hkind, -⟩ := a.book.exists_new_make calls
  refine ⟨old ++ new, by rw [hbook, hnew, hold, List.append_assoc], ?_⟩
  rw [List.forall_mem_append]
  refine ⟨hquiet, fun call hcall => ?_⟩
  rcases hkind call hcall with hmem | ⟨n, rfl⟩
  · exact hnone calls hcourse call hmem
  · rfl

/-- Nothing but to go on asks for downloads. -/
theorem AskedNothing.act (ha : a.AskedNothing b) {m : Moment}
    (hm : ∀ r event, m ≠ .stepped r event) : (a.act m).AskedNothing b := by
  cases m with
  | stepped r event => exact absurd rfl (hm r event)
  | stopped => exact ha
  | restarted => exact ha
  | operated op =>
    obtain ⟨old, hold, hquiet⟩ := ha
    refine ⟨_, by rw [← List.append_assoc, ← hold]; rfl, ?_⟩
    rw [List.forall_mem_append]
    exact ⟨hquiet, List.forall_mem_map.mpr fun _ _ => rfl⟩

/-- **An attempt that does not have its pivot block yet asked for nothing.** The induction is on the
history from its end. -/
theorem askedNothing_of_isEarly (a : Attempt) (h : List Moment)
    (hturn : (a.after h).turn = .waiting stage) (hearly : stage.IsEarly) :
    (a.after h).AskedNothing a.book := by
  induction h using List.reverseRecOn generalizing stage with
  | nil => exact ⟨[], (List.append_nil _).symm, List.forall_mem_nil _⟩
  | append_singleton h m ih =>
    rw [after_concat] at hturn ⊢
    by_cases hstep : ∃ r event, m = .stepped r event
    · obtain ⟨r, event, rfl⟩ := hstep
      change ((a.after h).step r event).turn = _ at hturn
      show ((a.after h).step r event).AskedNothing a.book
      cases hbefore : (a.after h).turn with
      | waiting stage₀ =>
        obtain ⟨calls, -, hcourse⟩ := course_step hbefore r event
        rw [hturn] at hcourse
        refine (ih hbefore (hcourse.of_isEarly hearly).1).step hbefore fun calls hcourse => ?_
        rw [hturn] at hcourse
        exact (hcourse.of_isEarly hearly).2.1
      | _ =>
        rw [step_of_over (by simp [hbefore]), hbefore] at hturn
        cases hturn
    · have hm : ∀ r event, m ≠ .stepped r event := fun r event heq => hstep ⟨r, event, heq⟩
      rw [turn_act hm] at hturn
      exact (ih hturn hearly).act hm

/-- **An attempt that is over asks for nothing any more.** -/
theorem AskedNothing.after_of_over (ha : a.AskedNothing b)
    (hturn : ∀ stage, a.turn ≠ .waiting stage) (h : List Moment) : (a.after h).AskedNothing b := by
  induction h generalizing a with
  | nil => exact ha
  | cons m h ih =>
    by_cases hstep : ∃ r event, m = .stepped r event
    · obtain ⟨r, event, rfl⟩ := hstep
      have hsame : a.act (.stepped r event) = a := step_of_over hturn r event
      show ((a.act (.stepped r event)).after h).AskedNothing b
      rw [hsame]
      exact ih ha hturn
    · have hm : ∀ r event, m ≠ .stepped r event := fun r event heq => hstep ⟨r, event, heq⟩
      exact ih (ha.act hm) (by rwa [turn_act hm])

/-- **An attempt that is left without a pivot block** asked for nothing, and asks for nothing any
more. -/
theorem askedNothing_of_forgoes {start : Attempt} (hturn : (start.after h).turn = .waiting stage)
    (hforgoes : (start.after h).catchUp.Forgoes r stage event) (rest : List Moment) :
    (start.after (h ++ .stepped r event :: rest)).AskedNothing start.book := by
  have hsilent : ((start.after h).step r event).AskedNothing start.book :=
    (askedNothing_of_isEarly start h hturn hforgoes.isEarly).step hturn fun _ hcourse =>
      (hcourse.of_forgoes hforgoes).1
  obtain ⟨_, -, hcourse⟩ := course_step hturn r event
  rw [after_append]
  exact hsilent.after_of_over (hcourse.of_forgoes hforgoes).2 rest

/-- What was received in a history was received in a longer one. -/
theorem Received.append {start : Attempt} {pivot : SealedHeader}
    (hreceived : Received start h pivot event) (more : List Moment) :
    Received start (h ++ more) pivot event := by
  obtain ⟨past, r, rest, stage, chainDone, stateDone, rfl, hturn, hreceives⟩ := hreceived
  exact ⟨past, r, rest ++ more, stage, chainDone, stateDone, by simp, hturn, hreceives⟩

/-- **What an attempt has it received.** The induction is on the history from its end. -/
theorem received_after {start : Attempt} (hfresh : start.turn = .waiting .fresh) (h : List Moment)
    {pivot : SealedHeader} {chainDone stateDone : Bool}
    (hhas : CatchUp.Has pivot (start.after h).turn chainDone stateDone) :
    (chainDone = true → Received start h pivot (.chainImported (.ok ()))) ∧
      (stateDone = true → Received start h pivot (.stateDownloaded (.ok ()))) := by
  induction h using List.reverseRecOn generalizing chainDone stateDone with
  | nil =>
    change CatchUp.Has pivot start.turn _ _ at hhas
    rw [hfresh] at hhas
    cases hhas
  | append_singleton h m ih =>
    have hearlier {chainDone stateDone : Bool}
        (hhas : CatchUp.Has pivot (start.after h).turn chainDone stateDone) :
        (chainDone = true → Received start (h ++ [m]) pivot (.chainImported (.ok ()))) ∧
          (stateDone = true → Received start (h ++ [m]) pivot (.stateDownloaded (.ok ()))) :=
      ⟨fun hdone => ((ih hhas).1 hdone).append [m], fun hdone => ((ih hhas).2 hdone).append [m]⟩
    rw [after_concat] at hhas
    by_cases hstep : ∃ r event, m = .stepped r event
    · obtain ⟨r, event, rfl⟩ := hstep
      change CatchUp.Has pivot ((start.after h).step r event).turn _ _ at hhas
      cases hbefore : (start.after h).turn with
      | waiting stage =>
        obtain ⟨calls, -, hcourse⟩ := course_step hbefore r event
        rcases hcourse.of_has hhas with ⟨rfl, rfl⟩ | rfl | hreceives
        · exact ⟨nofun, nofun⟩
        · exact hearlier (by rw [hbefore]; exact .some _ _)
        · have hnow : Received start (h ++ [.stepped r event]) pivot event :=
            ⟨h, r, [], stage, _, _, rfl, hbefore, hreceives⟩
          cases hreceives with
          | chain =>
            exact ⟨fun _ => hnow, (hearlier (by rw [hbefore]; exact .some false _)).2⟩
          | state =>
            exact ⟨(hearlier (by rw [hbefore]; exact .some _ false)).1, fun _ => hnow⟩
      | _ =>
        rw [step_of_over (by simp [hbefore])] at hhas
        exact hearlier hhas
    · rw [turn_act fun r event heq => hstep ⟨r, event, heq⟩] at hhas
      exact hearlier hhas

/-- **An attempt leaves nothing half done.** Let anything happen to an attempt of a downloader, in
any order and whatever the collaborators answer, while nobody else writes.

* Whenever it asks for the chain or the world state at a pivot block, the store keeps that one at
  the moment of the call.  The pivot block does not lie before the trusted block, and the chain is
  asked for from that on if there is one.  Nothing but such calls comes after it in the step, which
  leaves the best height at the pivot block, or higher if it was before.
* The local head is the one before, unless the attempt ended well: then it is the pivot block, of
  which both the chain and the world state were received.
* If the pivot block could not be read, chosen or kept, then nothing was asked for, and nothing is
  asked for whatever happens after that. -/
theorem crash_consistent (c : CatchUp) (b : Logbook) (kept : Option SealedHeader)
    (hlisteners : b.state.Confined Progress.Change.Bystander) {h : List Moment}
    (hundisturbed : (begin c b kept).Along Undisturbed h) :
    let start := begin c b kept
    let a := start.after h
    (∀ r event, Undisturbed a (.stepped r event) →
      ∀ before call later, a.newCalls r event = before ++ call :: later →
        ∀ pivot, call.downloads? = some pivot →
          before.foldl (Call.stores r) a.kept = some pivot ∧
          (∀ trusted ∈ c.checkpoint, trusted.number ≤ pivot.number) ∧
          (∀ first p, call = .importToPivot first p →
            first = c.checkpoint.map fun trusted => ⟨trusted.number, trusted.hash⟩) ∧
          (∀ other ∈ later, other.downloads? = some pivot) ∧
          (a.step r event).book.state.progress.best =
            max a.book.state.progress.best pivot.number) ∧
    (a.book.state.progress.localHead =
      match a.turn with
      | .ended (.ok pivot) => pivot.number
      | _ => b.state.progress.localHead) ∧
    (∀ pivot, a.turn = .ended (.ok pivot) →
      Received start h pivot (.chainImported (.ok ())) ∧
        Received start h pivot (.stateDownloaded (.ok ()))) ∧
    ∀ stage r event, a.turn = .waiting stage → c.Forgoes r stage event → ∀ rest,
      (start.after (h ++ .stepped r event :: rest)).AskedNothing b := by
  intro start a
  have hsteady : a.Steady c b := (steady_begin hlisteners).after hundisturbed
  refine ⟨fun r event hload before call later hnew pivot hcall =>
      hsteady.requests_newCalls hload hnew hcall, hsteady.localHead, fun pivot hturn => ?_,
    fun stage r event hturn hforgoes rest =>
      askedNothing_of_forgoes hturn (hforgoes.of_settings hsteady.settings) rest⟩
  have hhas : CatchUp.Has pivot a.turn true true := by
    rw [hturn]
    exact .all
  obtain ⟨hchain, hstate⟩ := received_after rfl h hhas
  exact ⟨hchain rfl, hstate rfl⟩

/-- A block of a number. -/
def blockAt (number : UInt64) : SealedHeader where
  header := { (default : Header) with number := number }
  hash := default

/-- Agreeable collaborators, with a store that keeps this. -/
def keeping (kept : Option SealedHeader) : Replies :=
  { Synchronizer.agreeable true with load := .ok kept }

/-- An attempt with a trusted block is given a pivot block: that one is kept when the chain and the
world state are asked for, and published. -/
theorem crash_consistent_of_chosen :
    let c : CatchUp := { mode := .snap, checkpoint := some ⟨5, default⟩, resync := false }
    let b : Logbook := ⟨.initial 5, []⟩
    let h : List Moment := [.stepped (keeping none) .begun]
    let a := (begin c b none).after h
    b.state.Confined Progress.Change.Bystander ∧ (begin c b none).Along Undisturbed h ∧
      [Call.savePivot (blockAt 9), .change (.best 9)].foldl (Call.stores (keeping none)) a.kept =
        some (blockAt 9) ∧
      (a.step (keeping none) (.selected (.ok (blockAt 9)))).book.state.progress.best = 9 ∧
      a.book.state.progress.localHead = 0 := by
  intro c b h a
  have hlisteners : b.state.Confined Progress.Change.Bystander := nofun
  have hkeeps {kept : Option SealedHeader} {a : Attempt} {event : Event} (h : kept = a.kept) :
      Undisturbed a (.stepped (keeping kept) event) :=
    fun found hfound => (Except.ok.inj hfound).symm.trans h
  have hundisturbed : (begin c b none).Along Undisturbed h := ⟨hkeeps rfl, trivial⟩
  have hcalls : a.newCalls (keeping none) (.selected (.ok (blockAt 9))) =
      [.savePivot (blockAt 9), .change (.best 9)] ++
        .importToPivot (some ⟨5, default⟩) (blockAt 9) ::
          [.downloadState (blockAt 9) .ranges] := rfl
  obtain ⟨hrequests, hhead, -, -⟩ := crash_consistent c b none hlisteners hundisturbed
  obtain ⟨hkept, -, -, -, hbest⟩ := hrequests _ _ (hkeeps rfl) _ _ _ hcalls (blockAt 9) rfl
  exact ⟨hlisteners, hundisturbed, hkept, hbest, hhead⟩

end Attempt

end ExecutionNode.Sync
