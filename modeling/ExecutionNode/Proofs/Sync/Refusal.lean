import ExecutionNode.Proofs.Sync.Attempt

/-!
# Refused pivot blocks

An attempt refuses a pivot block that lies before its trusted block.  A pivot block that was chosen
is kept before the attempt looks at that, and nobody forgets it then.  The next attempt takes up
what is kept, and has none chosen.  So it refuses the same one, whatever could be chosen by now, and
so does every attempt after it, until one starts over.

* `Attempt.refuses`: an attempt that has a pivot block before its trusted block refuses it and
  leaves it kept.
* `Attempt.Doomed` is the invariant of an attempt that takes up such a pivot block.
* `Plan.doomed`: so all attempts of a row are doomed that do not start over.
* `Attempt.proceeds`: an attempt that starts over, or before which nothing is kept, goes on with the
  pivot block that is chosen for it.
-/

namespace ExecutionNode.Sync

namespace CatchUp

/-- A pivot block lies before the trusted block of a downloader. -/
def Bars (c : CatchUp) (trusted : Checkpoint) (pivot : SealedHeader) : Prop :=
  c.checkpoint = some trusted ∧ pivot.number < trusted.number

/-- A pivot block before the trusted block does not pass. -/
theorem Bars.filter {c : CatchUp} {trusted : Checkpoint} {pivot : SealedHeader}
    (h : c.Bars trusted pivot) :
    c.checkpoint.filter (pivot.number < ·.number) = some trusted := by
  rw [h.1, Option.filter_some, if_pos (decide_eq_true h.2)]

variable {c : CatchUp} {r : Replies} {best : UInt64} {arming : Nat} {stage : Stage} {event : Event}
  {calls : List Call} {turn : Turn Stage SealedHeader}

/-- Nothing but to keep a pivot block that was chosen reaches the store. -/
theorem Course.foldl_stores (hcourse : c.Course r best arming stage event calls turn)
    (hstage : stage ≠ .selecting) (r' : Replies) (kept : Option SealedHeader) :
    calls.foldl (Call.stores r') kept = kept := by
  rw [← Call.foldl_stores_filter, hcourse.pursuit]
  unfold CatchUp.pursuit
  split
  · split
    · rfl
    · split
      · rfl
      · exact Synchronizer.foldl_stores_taken c r r' _ kept
      · rfl
  · exact absurd rfl hstage
  · rfl

/-- An attempt that does not begin yet does nothing, and stays or is stopped. -/
theorem Course.of_fresh (hcourse : c.Course r best arming .fresh event calls turn)
    (hevent : event ≠ .begun) :
    calls = [] ∧ (turn = .waiting .fresh ∨ turn = .ended (.error .stopped)) := by
  cases hcourse with
  | waits => exact ⟨rfl, .inl rfl⟩
  | unstopped => exact ⟨rfl, .inl rfl⟩
  | stops => exact ⟨rfl, .inr rfl⟩
  | refuses h => cases h; exact absurd rfl hevent
  | downloads h => cases h; exact absurd rfl hevent
  | unanswered h => cases h; exact absurd rfl hevent
  | receives h => cases h
  | completes h => cases h
  | misses h => cases h
  | breaks h => cases h
  | _ => exact absurd rfl hevent

end CatchUp

namespace Attempt

variable {a : Attempt} {c : CatchUp} {b : Logbook} {kept : Option SealedHeader}
  {trusted : Checkpoint} {pivot : SealedHeader} {r : Replies} {event : Event}
  {stage : CatchUp.Stage} {h : List Attempt.Moment}

/-- The store works: it gives back what it keeps, and keeps what it is given. -/
def Served (a : Attempt) : Moment → Prop
  | .stepped r _ => r.load = .ok a.kept ∧ r.save = .ok ()
  | _ => True

/-- Nothing that happens to an attempt touches the settings of its downloader. -/
theorem settings_act (a : Attempt) (m : Moment) :
    (a.act m).catchUp.settings = a.catchUp.settings := by
  cases m with
  | stepped r event =>
    show (a.step r event).catchUp.settings = _
    cases hturn : a.turn with
    | waiting stage =>
      rw [step_of_waiting hturn]
      exact a.catchUp.settings_resume r _ _ _ _
    | _ => rw [step_of_over (by simp [hturn])]
  | _ => rfl

/-- Nothing that happens to an attempt touches the settings of its downloader. -/
theorem settings_after (a : Attempt) (h : List Moment) :
    (a.after h).catchUp.settings = a.catchUp.settings := by
  induction h generalizing a with
  | nil => rfl
  | cons m h ih => exact (ih (a.act m)).trans (a.settings_act m)

/-- What is kept after a step is what its calls made of it, as far as they are about pivot
blocks. -/
theorem kept_step (hturn : a.turn = .waiting stage) (r : Replies) (event : Event) :
    ∃ calls, a.catchUp.Course r a.book.state.progress.best a.arming stage event calls
        (a.step r event).turn ∧
      (∃ new, (a.step r event).book.calls = a.book.calls ++ new ∧
        new.filter Call.concernsPivot = calls.filter Call.concernsPivot) ∧
      (a.step r event).kept = calls.foldl (Call.stores r) a.kept := by
  obtain ⟨calls, hbook, hcourse⟩ := course_step hturn r event
  obtain ⟨new, hnew, -, honly⟩ := a.book.exists_new_make calls
  have hsame := honly Call.concernsPivot fun _ => rfl
  refine ⟨calls, hcourse, ⟨new, by rw [hbook, hnew], hsame⟩, ?_⟩
  have hnewCalls : a.newCalls r event = new := by
    rw [newCalls, hbook, hnew, List.drop_left]
  have hkept := congrArg Attempt.kept (step_of_waiting hturn r event)
  rw [hkept, hnewCalls, ← Call.foldl_stores_filter r new, hsame, Call.foldl_stores_filter]

/-- **An attempt that has a pivot block before its trusted block** refuses it, and leaves it
kept. -/
theorem refuses (hturn : a.turn = .waiting stage) {lead : Call}
    (hacquires : a.catchUp.Acquires r pivot stage event lead) (hbars : a.catchUp.Bars trusted pivot)
    (hload : ∀ found, r.load = .ok found → found = a.kept) :
    (a.step r event).turn =
        .ended (.error (.pivotBelowCheckpoint pivot.number trusted.number)) ∧
      (a.step r event).kept = some pivot ∧
      ∃ new, (a.step r event).book.calls = a.book.calls ++ new ∧
        new.filter Call.concernsPivot = [lead] := by
  obtain ⟨calls, hcourse, ⟨new, hnew, hsame⟩, hkept⟩ := kept_step hturn r event
  obtain ⟨_, hbelow, rfl, hover⟩ | ⟨hpassed, -⟩ := hcourse.of_acquires hacquires
  · rw [hbars.filter] at hbelow
    obtain rfl := Option.some.inj hbelow
    refine ⟨hover, hkept.trans (hacquires.stores hload), new, hnew, hsame.trans ?_⟩
    cases hacquires <;> rfl
  · rw [hbars.filter] at hpassed
    cases hpassed

/-- **An attempt that has a pivot block after its trusted block** asks for what is there, and leaves
it kept. -/
theorem proceeds (hturn : a.turn = .waiting stage) {lead : Call}
    (hacquires : a.catchUp.Acquires r pivot stage event lead)
    (hpasses : ∀ trusted ∈ a.catchUp.checkpoint, trusted.number ≤ pivot.number)
    (haccepted : r.importRefused = none) (hload : ∀ found, r.load = .ok found → found = a.kept) :
    (a.step r event).turn = .waiting (.downloading pivot false false) ∧
      (a.step r event).kept = some pivot := by
  obtain ⟨calls, hcourse, -, hkept⟩ := kept_step hturn r event
  have hpassed := CatchUp.passes_iff.mpr hpasses
  obtain ⟨_, hbelow, -⟩ | ⟨-, ⟨-, rfl, hwaiting⟩ | ⟨failure, hrefused, -⟩⟩ :=
    hcourse.of_acquires hacquires
  · rw [hpassed] at hbelow
    cases hbelow
  · refine ⟨hwaiting, ?_⟩
    rw [hkept, ← Call.foldl_stores_filter, hacquires.filter_concernsPivot rfl]
    exact hacquires.stores hload
  · rw [haccepted] at hrefused
    cases hrefused

/-- An attempt that starts over, or before which nothing is kept, has a pivot block chosen. -/
theorem selects (hturn : a.turn = .waiting .fresh)
    (hanew : a.catchUp.resync = true ∨ a.kept = none) (hload : r.load = .ok a.kept) :
    (a.step r .begun).turn = .waiting .selecting := by
  have hlacks (p : SealedHeader) (lead : Call) : ¬ a.catchUp.Acquires r p .fresh .begun lead := by
    rintro ⟨hresync, hfound⟩
    rcases hanew with hover | hnone
    · exact Bool.false_ne_true (hresync.symm.trans hover)
    · rw [hload, hnone] at hfound
      cases hfound
  obtain ⟨calls, -, hcourse⟩ := course_step hturn r .begun
  generalize (a.step r .begun).turn = turn at hcourse
  cases hcourse with
  | waits hidle => cases hidle
  | startsOver => rfl
  | findsNone => rfl
  | unread _ hfailed => rw [hload] at hfailed; cases hfailed
  | refuses h => exact absurd h (hlacks _ _)
  | downloads h => exact absurd h (hlacks _ _)
  | unanswered h => exact absurd h (hlacks _ _)
  | receives h => cases h
  | completes h => cases h
  | misses h => cases h

/-! ### Attempts that take up what is kept -/

/-- An attempt took up the pivot block that is kept, or will. -/
def Holds (pivot : SealedHeader) (a : Attempt) : Prop :=
  a.kept = some pivot ∧ a.turn ≠ .waiting .selecting

/-- **An attempt that does not start over holds on to the pivot block that is kept**, whatever
happens to it. -/
theorem Holds.act (ha : a.Holds pivot) (hresync : a.catchUp.resync = false) {m : Moment}
    (hm : Served a m) : (a.act m).Holds pivot := by
  cases m with
  | stepped r event =>
    show (a.step r event).Holds pivot
    cases hturn : a.turn with
    | waiting stage =>
      obtain ⟨calls, hcourse, -, hkept⟩ := kept_step hturn r event
      have hstage : stage ≠ .selecting := fun heq => ha.2 (hturn.trans (congrArg _ heq))
      refine ⟨?_, fun hselecting => ?_⟩
      · rw [hkept, hcourse.foldl_stores hstage, ha.1]
      · rw [hselecting] at hcourse
        cases hcourse with
        | waits => exact hstage rfl
        | unstopped => exact hstage rfl
        | startsOver hover => rw [hresync] at hover; cases hover
        | findsNone _ hload => rw [hm.1, ha.1] at hload; cases hload
        | unanswered _ _ _ hfailed => exact Failure.turn_ne_waiting _ _ hfailed.symm
    | _ => rwa [step_of_over (by simp [hturn])]
  | _ => exact ha

/-- An attempt that takes up a pivot block before its trusted block holds on to that one. It has not
begun, or it refused that one, or it was stopped; it had none chosen and asked for nothing. -/
structure Doomed (b : Logbook) (pivot : SealedHeader) (trusted : Checkpoint) (a : Attempt) :
    Prop where
  /-- The pivot block is kept. -/
  holds : a.Holds pivot
  /-- The attempt does not go on. -/
  turn : a.turn = .waiting .fresh ∨ a.turn = .ended (.error .stopped) ∨
    a.turn = .ended (.error (.pivotBelowCheckpoint pivot.number trusted.number))
  /-- All that was done about pivot blocks was to read the kept one. -/
  calls : ∃ new, a.book.calls = b.calls ++ new ∧
    ∀ call ∈ new, call.concernsPivot = true → call = .loadPivot

/-- **What happens to an attempt that is doomed leaves it so.** -/
theorem Doomed.act (ha : a.Doomed b pivot trusted) (hresync : a.catchUp.resync = false)
    (hbars : a.catchUp.Bars trusted pivot) {m : Moment} (hm : Served a m) :
    (a.act m).Doomed b pivot trusted := by
  have hholds := ha.holds.act hresync hm
  obtain ⟨old, hold, hread⟩ := ha.calls
  cases m with
  | stepped r event =>
    rcases ha.turn with hturn | hturn
    · obtain ⟨new, hnew, hmerely, hover⟩ : ∃ new,
          (a.step r event).book.calls = a.book.calls ++ new ∧
          (∀ call ∈ new.filter Call.concernsPivot, call = .loadPivot) ∧
          ((a.step r event).turn = .waiting .fresh ∨
            (a.step r event).turn = .ended (.error .stopped) ∨ (a.step r event).turn =
              .ended (.error (.pivotBelowCheckpoint pivot.number trusted.number))) := by
        by_cases hbegun : event = .begun
        · subst hbegun
          have hload : r.load = .ok (some pivot) := hm.1.trans (congrArg _ ha.holds.1)
          obtain ⟨hover, -, new, hnew, hlone⟩ := refuses hturn (.takenUp hresync hload) hbars
            fun found hfound => Except.ok.inj (hfound.symm.trans hm.1)
          exact ⟨new, hnew, by rw [hlone]; exact List.forall_mem_singleton.mpr rfl,
            .inr (.inr hover)⟩
        · obtain ⟨calls, hcourse, ⟨new, hnew, hsame⟩, -⟩ := kept_step hturn r event
          obtain ⟨rfl, hstays⟩ := hcourse.of_fresh hbegun
          exact ⟨new, hnew, by rw [hsame]; exact nofun, hstays.imp_right .inl⟩
      refine ⟨hholds, hover, old ++ new, ?_, ?_⟩
      · exact hnew.trans (by rw [hold, List.append_assoc])
      · rw [List.forall_mem_append]
        exact ⟨hread, fun call hcall hconcerns =>
          hmerely call (List.mem_filter.mpr ⟨hcall, hconcerns⟩)⟩
    · have hover : ∀ stage, a.turn ≠ .waiting stage := by
        rcases hturn with hturn | hturn <;> rw [hturn] <;> exact nofun
      show (a.step r event).Doomed b pivot trusted
      rwa [step_of_over hover]
  | operated op =>
    refine ⟨hholds, ha.turn, _, by rw [← List.append_assoc, ← hold]; rfl, ?_⟩
    rw [List.forall_mem_append]
    exact ⟨hread, List.forall_mem_map.mpr fun _ _ => nofun⟩
  | _ => exact ⟨hholds, ha.turn, old, hold, hread⟩

/-- What is kept by everything that happens to attempts with the settings of a downloader is kept
by a history. -/
theorem after_induction {P : Attempt → Prop}
    (hact : ∀ a m, P a → a.catchUp.settings = c.settings → Served a m → P (a.act m)) (ha : P a)
    (hsettings : a.catchUp.settings = c.settings) (hserved : a.Along Served h) : P (a.after h) := by
  induction h generalizing a with
  | nil => exact ha
  | cons m h ih =>
    exact ih (hact a m ha hsettings hserved.1) ((a.settings_act m).trans hsettings) hserved.2

/-- An attempt that is over stays where it is, and what is kept stays kept. -/
theorem after_of_over (hover : ∀ stage, a.turn ≠ .waiting stage) (h : List Moment) :
    (a.after h).turn = a.turn ∧ (a.after h).kept = a.kept := by
  induction h generalizing a with
  | nil => exact ⟨rfl, rfl⟩
  | cons m h ih =>
    have hsame : (a.act m).turn = a.turn ∧ (a.act m).kept = a.kept := by
      cases m with
      | stepped r event =>
        show (a.step r event).turn = _ ∧ (a.step r event).kept = _
        rw [step_of_over hover]
        exact ⟨rfl, rfl⟩
      | _ => exact ⟨rfl, rfl⟩
    obtain ⟨hturn, hkept⟩ := ih (a := a.act m) (by rwa [hsame.1])
    exact ⟨hturn.trans hsame.1, hkept.trans hsame.2⟩

/-- **While an attempt has no pivot block the store keeps what it kept.** The induction is on the
history from its end. -/
theorem kept_of_isEarly (a : Attempt) (h : List Moment) (hturn : (a.after h).turn = .waiting stage)
    (hearly : stage.IsEarly) : (a.after h).kept = a.kept := by
  induction h using List.reverseRecOn generalizing stage with
  | nil => rfl
  | append_singleton h m ih =>
    rw [after_concat] at hturn ⊢
    cases m with
    | stepped r event =>
      change ((a.after h).step r event).turn = _ at hturn
      show ((a.after h).step r event).kept = _
      cases hbefore : (a.after h).turn with
      | waiting stage₀ =>
        obtain ⟨calls, hcourse, -, hkept⟩ := kept_step hbefore r event
        rw [hturn] at hcourse
        obtain ⟨hearlier, -, hstores⟩ := hcourse.of_isEarly hearly
        rw [hkept, hstores, ih hbefore hearlier]
      | _ =>
        rw [step_of_over (by simp [hbefore]), hbefore] at hturn
        cases hturn
    | _ => exact ih hturn hearly

/-- An attempt to which it happened that it began is not at its beginning. -/
theorem turn_ne_fresh_of_begun (a : Attempt) (h : List Moment) (hbegun : .stepped r .begun ∈ h) :
    (a.after h).turn ≠ .waiting .fresh := by
  intro hturn
  induction h using List.reverseRecOn with
  | nil => cases hbegun
  | append_singleton h m ih =>
    rw [after_concat] at hturn
    have hearlier (hturn : (a.after h).turn = .waiting .fresh) : m = .stepped r .begun := by
      rcases List.mem_append.mp hbegun with hmem | hmem
      · exact absurd hturn fun hturn => ih hmem hturn
      · exact (List.mem_singleton.mp hmem).symm
    cases m with
    | stepped r' event =>
      change ((a.after h).step r' event).turn = _ at hturn
      cases hbefore : (a.after h).turn with
      | waiting stage =>
        obtain ⟨calls, -, hcourse⟩ := course_step hbefore r' event
        rw [hturn] at hcourse
        cases hcourse with
        | waits hidle => cases hearlier hbefore; cases hidle
        | unstopped => cases hearlier hbefore
        | unanswered _ _ _ hfailed => exact Failure.turn_ne_waiting _ _ hfailed.symm
      | _ =>
        rw [step_of_over (by simp [hbefore]), hbefore] at hturn
        cases hturn
    | _ => cases hearlier hturn

/-- An attempt with the settings of a downloader has a pivot block as that does. -/
theorem acquires_of_settings {c' : CatchUp} (hsettings : c'.settings = c.settings) {lead : Call}
    (h : c.Acquires r pivot stage event lead) : c'.Acquires r pivot stage event lead := by
  cases h with
  | takenUp hresync hload =>
    exact .takenUp ((congrArg CatchUp.Settings.resync hsettings).trans hresync) hload
  | chosen hsave => exact .chosen hsave

/-- An attempt with the settings of a downloader has its trusted block. -/
theorem bars_of_settings {c' : CatchUp} (hsettings : c'.settings = c.settings)
    (h : c.Bars trusted pivot) : c'.Bars trusted pivot :=
  ⟨(congrArg CatchUp.Settings.checkpoint hsettings).trans h.1, h.2⟩

end Attempt

/-! ### Attempts in a row -/

/-- An attempt as it will be made: its downloader, the logbook then, and what will happen to it. -/
structure Plan where
  /-- The downloader. -/
  catchUp : CatchUp
  /-- What was done before, and the sync state then. -/
  book : Logbook
  /-- What will happen to the attempt. -/
  history : List Attempt.Moment

namespace Plan

/-- The attempt of a plan in the end, if this is kept when it begins. -/
def outcome (p : Plan) (kept : Option SealedHeader) : Attempt :=
  (Attempt.begin p.catchUp p.book kept).after p.history

/-- The store works while an attempt is made. -/
def Served (p : Plan) (kept : Option SealedHeader) : Prop :=
  (Attempt.begin p.catchUp p.book kept).Along Attempt.Served p.history

/-- What is kept after attempts in a row. -/
def keeps (kept : Option SealedHeader) : List Plan → Option SealedHeader
  | [] => kept
  | p :: ps => keeps (p.outcome kept).kept ps

/-- The store works while attempts are made in a row. -/
def AllServed (kept : Option SealedHeader) : List Plan → Prop
  | [] => True
  | p :: ps => p.Served kept ∧ AllServed (p.outcome kept).kept ps

/-- An attempt has a pivot block before its trusted block at some moment, by a call of its own. -/
def Refuses (p : Plan) (kept : Option SealedHeader) (pivot : SealedHeader) (trusted : Checkpoint)
    (lead : Call) : Prop :=
  p.catchUp.Bars trusted pivot ∧
    ∃ past r event rest stage, p.history = past ++ .stepped r event :: rest ∧
      ((Attempt.begin p.catchUp p.book kept).after past).turn = .waiting stage ∧
      p.catchUp.Acquires r pivot stage event lead

variable {p : Plan} {kept : Option SealedHeader} {pivot : SealedHeader} {trusted : Checkpoint}
  {lead : Call}

/-- Downloaders of an attempt keep the settings of the plan. -/
theorem settings_outcome (p : Plan) (kept : Option SealedHeader)
    (past : List Attempt.Moment) :
    ((Attempt.begin p.catchUp p.book kept).after past).catchUp.settings = p.catchUp.settings :=
  (Attempt.settings_after _ past).trans rfl

/-- **An attempt that has a pivot block before its trusted block** ends so, and leaves that one
kept. -/
theorem Refuses.outcome (h : p.Refuses kept pivot trusted lead) (hserved : p.Served kept) :
    (p.outcome kept).turn =
        .ended (.error (.pivotBelowCheckpoint pivot.number trusted.number)) ∧
      (p.outcome kept).kept = some pivot := by
  obtain ⟨hbars, past, r, event, rest, stage, hhistory, hturn, hacquires⟩ := h
  have hsettings := p.settings_outcome kept past
  unfold Served at hserved
  rw [hhistory, Attempt.along_append] at hserved
  obtain ⟨hover, hkept, -⟩ := Attempt.refuses hturn
    (Attempt.acquires_of_settings hsettings hacquires) (Attempt.bars_of_settings hsettings hbars)
    fun found hfound => Except.ok.inj (hfound.symm.trans hserved.2.1.1)
  obtain ⟨hturn', hkept'⟩ := Attempt.after_of_over (a := _) (by rw [hover]; exact nofun) rest
  unfold Plan.outcome
  rw [hhistory, Attempt.after_append]
  exact ⟨hturn'.trans hover, hkept'.trans hkept⟩

/-- An attempt that does not start over holds on to the pivot block that is kept. -/
theorem holds (hresync : p.catchUp.resync = false) (hserved : p.Served (some pivot)) :
    (p.outcome (some pivot)).Holds pivot :=
  Attempt.after_induction (c := p.catchUp)
    (fun _ _ ha hsettings hm =>
      ha.act ((congrArg CatchUp.Settings.resync hsettings).trans hresync) hm)
    ⟨rfl, nofun⟩ rfl hserved

/-- **Attempts that do not start over leave the pivot block that is kept.** -/
theorem keeps_eq {ps : List Plan} (hresync : ∀ p ∈ ps, p.catchUp.resync = false)
    (hserved : AllServed (some pivot) ps) :
    keeps (some pivot) ps = some pivot ∧ ∀ p ∈ ps, p.Served (some pivot) := by
  induction ps with
  | nil => exact ⟨rfl, List.forall_mem_nil _⟩
  | cons p ps ih =>
    obtain ⟨hp, hps⟩ := List.forall_mem_cons.mp hresync
    have hkept := (holds hp hserved.1).1
    have hrest := hserved.2
    rw [hkept] at hrest
    obtain ⟨hkeeps, hall⟩ := ih hps hrest
    refine ⟨?_, List.forall_mem_cons.mpr ⟨hserved.1, hall⟩⟩
    rw [keeps, hkept, hkeeps]

/-- **An attempt that does not start over is doomed** if the pivot block that is kept lies before
its trusted block. -/
theorem doomed (hresync : p.catchUp.resync = false) (hbars : p.catchUp.Bars trusted pivot)
    (hserved : p.Served (some pivot)) :
    (p.outcome (some pivot)).Doomed p.book pivot trusted := by
  have hbegin : (Attempt.begin p.catchUp p.book (some pivot)).Doomed p.book pivot trusted :=
    ⟨⟨rfl, nofun⟩, .inl rfl, [], (List.append_nil _).symm, nofun⟩
  refine Attempt.after_induction (c := p.catchUp) (P := (·.Doomed p.book pivot trusted))
    (fun a m ha hsettings hm => ?_) hbegin rfl hserved
  exact ha.act ((congrArg CatchUp.Settings.resync hsettings).trans hresync)
    (Attempt.bars_of_settings hsettings hbars) hm

/-- What an attempt takes up was kept before it. -/
theorem Refuses.eq_of_takenUp (h : p.Refuses kept pivot trusted .loadPivot)
    (hserved : p.Served kept) : kept = some pivot := by
  obtain ⟨-, past, r, event, rest, stage, hhistory, hturn, hacquires⟩ := h
  cases hacquires with
  | takenUp _ hload =>
    unfold Served at hserved
    rw [hhistory, Attempt.along_append] at hserved
    have hkept := Attempt.kept_of_isEarly _ past hturn trivial
    have hsame := Except.ok.inj (hload.symm.trans hserved.2.1.1)
    rw [hkept] at hsame
    exact hsame.symm

/-- **An attempt that starts over**, or before which nothing is kept, goes on with the pivot block
that is chosen for it, if it does not lie before the trusted block. -/
theorem proceeds {c : CatchUp} (b : Logbook) (hanew : c.resync = true ∨ kept = none)
    {r r' : Replies} (hload : r.load = .ok kept) (hload' : r'.load = .ok kept)
    (hsave : r'.save = .ok ())
    (hpasses : ∀ trusted ∈ c.checkpoint, trusted.number ≤ pivot.number)
    (haccepted : r'.importRefused = none) :
    let a := (Attempt.begin c b kept).after
      [.stepped r .begun, .stepped r' (.selected (.ok pivot))]
    a.turn = .waiting (.downloading pivot false false) ∧ a.kept = some pivot := by
  intro a
  have hturn : ((Attempt.begin c b kept).step r .begun).turn = .waiting .selecting :=
    Attempt.selects rfl hanew hload
  have hsettings := Attempt.settings_act (Attempt.begin c b kept) (.stepped r .begun)
  have hcheckpoint : ((Attempt.begin c b kept).step r .begun).catchUp.checkpoint = c.checkpoint :=
    congrArg CatchUp.Settings.checkpoint hsettings
  have hkept : ((Attempt.begin c b kept).step r .begun).kept = kept :=
    Attempt.kept_of_isEarly (.begin c b kept) [.stepped r .begun] hturn trivial
  refine Attempt.proceeds hturn (.chosen hsave)
    (fun trusted htrusted => hpasses trusted (hcheckpoint ▸ htrusted)) haccepted ?_
  intro found hfound
  exact (Except.ok.inj (hfound.symm.trans hload')).trans hkept.symm

/-- **A refused pivot block stays.** Let an attempt on a working store have a pivot block before its
trusted block. It refuses that one, and leaves it kept: if it took it up then that is what was kept
before, and if it was chosen for the attempt then it is kept in place of that. Let attempts be made
after it on that store, with any downloaders that do not start over and whatever happens to them.

* The refused pivot block stays kept throughout.
* Each of those attempts that has a trusted block after it has none chosen and asks for nothing.
  Once it has begun it refuses the same one, unless it is stopped.

An attempt that starts over, or before which nothing is kept, goes on with the pivot block that is
chosen for it if that does not lie before the trusted block. -/
theorem refused_pivot_stays (hserved : p.Served kept)
    (hrefuses : p.Refuses kept pivot trusted lead) :
    ((p.outcome kept).turn =
        .ended (.error (.pivotBelowCheckpoint pivot.number trusted.number)) ∧
      (p.outcome kept).kept = some pivot ∧ (lead = .loadPivot → kept = some pivot)) ∧
    (∀ later, (∀ q ∈ later, q.catchUp.resync = false) → AllServed (some pivot) later →
      keeps (some pivot) later = some pivot ∧
      ∀ q ∈ later, ∀ barrier, q.catchUp.Bars barrier pivot →
        (q.outcome (some pivot)).Doomed q.book pivot barrier ∧
        ((∃ r, .stepped r .begun ∈ q.history) →
          (q.outcome (some pivot)).turn = .ended (.error .stopped) ∨
          (q.outcome (some pivot)).turn =
            .ended (.error (.pivotBelowCheckpoint pivot.number barrier.number)))) ∧
    ∀ (c : CatchUp) (b : Logbook) (before : Option SealedHeader), c.resync = true ∨ before = none →
      ∀ r r' offered, r.load = .ok before → r'.load = .ok before → r'.save = .ok () →
        (∀ barrier ∈ c.checkpoint, barrier.number ≤ offered.number) → r'.importRefused = none →
          let a := (Attempt.begin c b before).after
            [.stepped r .begun, .stepped r' (.selected (.ok offered))]
          a.turn = .waiting (.downloading offered false false) ∧ a.kept = some offered := by
  obtain ⟨hturn, hkept⟩ := hrefuses.outcome hserved
  refine ⟨⟨hturn, hkept, fun hlead => ?_⟩, fun later hresync hserved => ?_, ?_⟩
  · subst hlead
    exact hrefuses.eq_of_takenUp hserved
  · obtain ⟨hkeeps, hall⟩ := keeps_eq hresync hserved
    refine ⟨hkeeps, fun q hq barrier hbars => ?_⟩
    have hdoomed := doomed (hresync q hq) hbars (hall q hq)
    refine ⟨hdoomed, fun ⟨r, hbegun⟩ => ?_⟩
    exact hdoomed.turn.resolve_left (Attempt.turn_ne_fresh_of_begun _ _ hbegun)
  · intro c b before hanew r r' offered hload hload' hsave hpasses haccepted
    exact proceeds b hanew hload hload' hsave hpasses haccepted

/-- A downloader with a trusted block. -/
def trusting : CatchUp where
  mode := .checkpoint
  checkpoint := some ⟨960, default⟩
  resync := false

/-- An attempt before which this is kept, and for which this pivot block is chosen if it asks. -/
def offered (kept : Option SealedHeader) (pivot : SealedHeader) : Plan where
  catchUp := trusting
  book := ⟨.initial 5, []⟩
  history := [.stepped (Attempt.keeping kept) .begun,
    .stepped (Attempt.keeping kept) (.selected (.ok pivot))]

/-- A pivot block before the trusted block is chosen, kept and refused. -/
theorem refuses_offered :
    (offered none (Attempt.blockAt 950)).Refuses none (Attempt.blockAt 950) ⟨960, default⟩
      (.savePivot (Attempt.blockAt 950)) :=
  ⟨⟨rfl, by decide⟩, [_], _, _, [], _, rfl, rfl, .chosen rfl⟩

/-- The next attempt is doomed, although a later pivot block could be chosen for it. -/
theorem refused_pivot_stays_offered :
    let p := offered none (Attempt.blockAt 950)
    let q := offered (some (Attempt.blockAt 950)) (Attempt.blockAt 970)
    p.Served none ∧
      p.Refuses none (Attempt.blockAt 950) ⟨960, default⟩ (.savePivot (Attempt.blockAt 950)) ∧
      AllServed (some (Attempt.blockAt 950)) [q] ∧ keeps none [p, q] = some (Attempt.blockAt 950) ∧
      (q.outcome (some (Attempt.blockAt 950))).Doomed q.book (Attempt.blockAt 950)
        ⟨960, default⟩ := by
  intro p q
  have hp : p.Served none := ⟨⟨rfl, rfl⟩, ⟨rfl, rfl⟩, trivial⟩
  have hq : AllServed (some (Attempt.blockAt 950)) [q] :=
    ⟨⟨⟨rfl, rfl⟩, ⟨rfl, rfl⟩, trivial⟩, trivial⟩
  obtain ⟨⟨-, hkept, -⟩, hlater, -⟩ := refused_pivot_stays hp refuses_offered
  obtain ⟨hkeeps, hdoomed⟩ := hlater [q] (by simp [q, offered, trusting]) hq
  refine ⟨hp, refuses_offered, hq, ?_, (hdoomed q (by simp) _ ⟨rfl, by decide⟩).1⟩
  rw [keeps, hkept]
  exact hkeeps

/-- An attempt that failed because of the pivot block chosen for it does not leave the store as it
was, and the next one fails with that pivot block and has none chosen. -/
theorem refused_pivot_taken_up :
    let p := offered none (Attempt.blockAt 950)
    let q := offered (some (Attempt.blockAt 950)) (Attempt.blockAt 970)
    AllServed none [p, q] ∧
      (p.outcome none).turn = .ended (.error (.pivotBelowCheckpoint 950 960)) ∧
      .selectPivot ∈ (p.outcome none).book.calls ∧ keeps none [p] ≠ none ∧
      (q.outcome (keeps none [p])).turn = .ended (.error (.pivotBelowCheckpoint 950 960)) ∧
      .selectPivot ∉ (q.outcome (keeps none [p])).book.calls := by
  refine ⟨⟨⟨⟨rfl, rfl⟩, ⟨rfl, rfl⟩, trivial⟩, ⟨⟨rfl, rfl⟩, ⟨rfl, rfl⟩, trivial⟩, trivial⟩, rfl, ?_,
    nofun, rfl, ?_⟩
  · exact List.mem_cons_of_mem _ List.mem_cons_self
  · show Call.selectPivot ∉ [.loadPivot]
    decide

end Plan

end ExecutionNode.Sync
