import ExecutionNode.Sync.Search
import Mathlib.Data.List.Basic

/-!
# What becomes of a search

A search is polled again and again.  Nobody can foresee when, except that no poll comes before it
is due, nor what the polls see.

* `begin?_eq`: a search breaks down before its first poll exactly if its deadline lies beyond the
  end of the clock.
* `run_eq_settled_iff`: a search is over with the first look that decides it, and only then.
* `exists_run_eq_settled`: if there is a pause between two polls at all, a search is over after so
  many of them, because the late ones decide it.
* A `patient` look decides as soon as it sees what it looks for, and gives up when it is late.
  `Decides` says what this comes to, poll by poll (`run_patient_eq_settled_iff`).
-/

namespace ExecutionNode.Sync.Search

/-- What a look sees, and when. -/
structure Poll (γ : Type) where
  /-- The time. -/
  time : Nat
  /-- What is seen. -/
  seen : γ

variable {α γ : Type} {s : Search} {interval : Duration} {look : γ → Bool → Look α}
  {polls : List (Poll γ)}

/-- Where polls in a row leave a search. -/
def run (interval : Duration) (look : γ → Bool → Look α) : Search → List (Poll γ) → Turn α
  | s, [] => .pending s
  | s, p :: polls =>
    match s.poll interval (look p.seen) p.time with
    | .pending s => s.run interval look polls
    | .settled result => .settled result

/-- No poll comes before it is due. -/
def Punctual (interval : Duration) : Search → List (Poll γ) → Prop
  | _, [] => True
  | s, p :: polls => s.due ≤ p.time ∧ (s.pause interval p.time).Punctual interval polls

/-- What a poll of a search finds. -/
def finds (s : Search) (look : γ → Bool → Look α) (p : Poll γ) : Look α :=
  look p.seen (s.deadline ≤ p.time)

/-! ### How a search begins -/

/-- **A search gets under way exactly if the clock can show its deadline.** -/
theorem begin?_eq (timeout : Duration) (start : Nat) :
    (begin? timeout start = none ↔ clockEnd ≤ start + timeout.nanoseconds) ∧
      ∀ search ∈ begin? timeout start, search = begin timeout start := by
  unfold begin?
  split
  next h => exact ⟨⟨nofun, fun hend => absurd h (Nat.not_lt_of_le hend)⟩, by rintro _ ⟨⟩; rfl⟩
  next h => exact ⟨⟨fun _ => Nat.le_of_not_lt h, fun _ => rfl⟩, nofun⟩

/-! ### When a search is over -/

/-- A search goes on after a look that does not decide it. -/
theorem run_cons_of_again {p : Poll γ} (h : s.finds look p = .again) :
    s.run interval look (p :: polls) = (s.pause interval p.time).run interval look polls := by
  unfold finds at h
  rw [run, poll, h]

/-- A search is over with a look that decides it. -/
theorem run_cons_of_decided {p : Poll γ} {result : Except PivotError α}
    (h : s.finds look p = .decided result) :
    s.run interval look (p :: polls) = .settled result := by
  unfold finds at h
  rw [run, poll, h]

/-- **A search is over with the first look that decides it.** -/
theorem run_eq_settled_iff {result : Except PivotError α} :
    s.run interval look polls = .settled result ↔
      ∃ earlier p later, polls = earlier ++ p :: later ∧
        (∀ q ∈ earlier, s.finds look q = .again) ∧ s.finds look p = .decided result := by
  induction polls generalizing s with
  | nil => exact ⟨nofun, by rintro ⟨earlier, p, later, hpolls, -⟩; simp at hpolls⟩
  | cons p polls ih =>
    cases hp : s.finds look p with
    | again =>
      rw [run_cons_of_again hp, ih]
      constructor
      · rintro ⟨earlier, q, later, rfl, hagain, hq⟩
        exact ⟨p :: earlier, q, later, rfl, List.forall_mem_cons.mpr ⟨hp, hagain⟩, hq⟩
      · rintro ⟨earlier, q, later, hpolls, hagain, hq⟩
        cases earlier with
        | nil =>
          obtain ⟨rfl, -⟩ := List.cons.inj hpolls
          rw [hp] at hq
          cases hq
        | cons first earlier =>
          obtain ⟨rfl, rfl⟩ := List.cons.inj hpolls
          exact ⟨earlier, q, later, rfl, (List.forall_mem_cons.mp hagain).2, hq⟩
    | decided result' =>
      rw [run_cons_of_decided hp]
      constructor
      · intro h
        cases h
        exact ⟨[], p, polls, rfl, nofun, hp⟩
      · rintro ⟨earlier, q, later, hpolls, hagain, hq⟩
        cases earlier with
        | nil =>
          obtain ⟨rfl, -⟩ := List.cons.inj hpolls
          rw [hp] at hq
          rw [(Look.decided.inj hq)]
        | cons first earlier =>
          obtain ⟨rfl, rfl⟩ := List.cons.inj hpolls
          rw [(List.forall_mem_cons.mp hagain).1] at hp
          cases hp

/-- A search goes on as long as no look decides it. -/
theorem exists_run_eq_pending_iff :
    (∃ s', s.run interval look polls = .pending s') ↔ ∀ p ∈ polls, s.finds look p = .again := by
  induction polls generalizing s with
  | nil => exact ⟨fun _ => nofun, fun _ => ⟨s, rfl⟩⟩
  | cons p polls ih =>
    rw [List.forall_mem_cons]
    cases hp : s.finds look p with
    | again =>
      rw [run_cons_of_again hp, ih]
      exact ⟨fun h => ⟨rfl, h⟩, And.right⟩
    | decided result =>
      rw [run_cons_of_decided hp]
      exact ⟨nofun, fun h => nomatch h.1⟩

/-- What a look leads to, in another form. -/
def mapLook {β : Type} (f : Except PivotError α → Except PivotError β) : Look α → Look β
  | .decided result => .decided (f result)
  | .again => .again

/-- A search with looks in another form comes to the same in that form. -/
theorem run_mapLook_eq_settled_iff {β : Type} {f : Except PivotError α → Except PivotError β}
    {result : Except PivotError β} :
    s.run interval (fun x late => mapLook f (look x late)) polls = .settled result ↔
      ∃ found, s.run interval look polls = .settled found ∧ result = f found := by
  have hagain (q : Poll γ) :
      s.finds (fun x late => mapLook f (look x late)) q = .again ↔ s.finds look q = .again := by
    show mapLook f (s.finds look q) = .again ↔ _
    cases s.finds look q with
    | again => exact ⟨fun _ => rfl, fun _ => rfl⟩
    | decided found => exact ⟨nofun, nofun⟩
  simp only [run_eq_settled_iff, hagain]
  constructor
  · rintro ⟨earlier, p, later, hpolls, hearlier, hp⟩
    change mapLook f (s.finds look p) = _ at hp
    cases hfound : s.finds look p with
    | again => rw [hfound] at hp; cases hp
    | decided found =>
      rw [hfound] at hp
      exact ⟨found, ⟨earlier, p, later, hpolls, hearlier, hfound⟩, (Look.decided.inj hp).symm⟩
  · rintro ⟨found, ⟨earlier, p, later, hpolls, hearlier, hfound⟩, rfl⟩
    refine ⟨earlier, p, later, hpolls, hearlier, ?_⟩
    show mapLook f (s.finds look p) = _
    rw [hfound]
    rfl

/-! ### How long a search takes -/

/-- So many polls fit in before the deadline. -/
theorem Punctual.length_mul_lt (h : s.Punctual interval polls)
    (hintime : ∀ p ∈ polls, p.time < s.deadline)
    (hdue : s.due < s.deadline + interval.nanoseconds) :
    s.due + polls.length * interval.nanoseconds < s.deadline + interval.nanoseconds := by
  induction polls generalizing s with
  | nil => simpa using hdue
  | cons p polls ih =>
    obtain ⟨hp, hpolls⟩ := List.forall_mem_cons.mp hintime
    have hrest : p.time + interval.nanoseconds + polls.length * interval.nanoseconds <
        s.deadline + interval.nanoseconds :=
      ih (s := s.pause interval p.time) h.2 hpolls (Nat.add_lt_add_right hp _)
    have hfirst : s.due ≤ p.time := h.1
    rw [List.length_cons, Nat.succ_mul]
    omega

/-- **A search is over after so many polls**, because there is a pause between two of them and the
late ones decide. -/
theorem exists_run_eq_settled {timeout : Duration} {start : Nat}
    (hinterval : 0 < interval.nanoseconds)
    (hlate : ∀ x, look x true ≠ .again) (h : (begin timeout start).Punctual interval polls)
    (hlength : timeout.nanoseconds / interval.nanoseconds + 1 < polls.length) :
    ∃ result, (begin timeout start).run interval look polls = .settled result := by
  cases hrun : (begin timeout start).run interval look polls with
  | settled result => exact ⟨result, rfl⟩
  | pending s' =>
    have hagain := exists_run_eq_pending_iff.mp ⟨s', hrun⟩
    have hintime : ∀ p ∈ polls, p.time < (begin timeout start).deadline := by
      intro p hp
      by_contra hlatePoll
      refine hlate p.seen ?_
      have hp' := hagain p hp
      unfold finds at hp'
      rwa [decide_eq_true (Nat.le_of_not_lt hlatePoll)] at hp'
    have hfit := h.length_mul_lt hintime (by show start < start + _ + _; omega)
    -- the polls that fit in are at most as many as the whole intervals, and one more
    have hquotient : timeout.nanoseconds <
        timeout.nanoseconds / interval.nanoseconds * interval.nanoseconds + interval.nanoseconds :=
      Nat.lt_div_mul_add hinterval
    have hmany : (timeout.nanoseconds / interval.nanoseconds + 1 + 1) * interval.nanoseconds ≤
        polls.length * interval.nanoseconds := Nat.mul_le_mul_right _ hlength
    rw [Nat.succ_mul, Nat.succ_mul] at hmany
    have hbound : start + polls.length * interval.nanoseconds <
        start + timeout.nanoseconds + interval.nanoseconds := hfit
    omega

/-! ### Patient looks -/

variable {β : Type} {see : γ → Option β} {giveUp : γ → PivotError} {result : Except PivotError β}

/-- A look that decides if something is seen, and otherwise gives up if it is late. -/
def patient (see : γ → Option β) (giveUp : γ → PivotError) (x : γ) (late : Bool) : Look β :=
  match see x with
  | some found => .decided (.ok found)
  | none => if late then .decided (.error (giveUp x)) else .again

/-- What decides a search with patient looks. -/
inductive Decides (see : γ → Option β) (giveUp : γ → PivotError) (s : Search) :
    List (Poll γ) → Except PivotError β → Prop where
  /-- The first poll that sees something, unless one before was late. -/
  | found {earlier later : List (Poll γ)} {p : Poll γ} {x : β}
      (hwaits : ∀ q ∈ earlier, see q.seen = none ∧ q.time < s.deadline)
      (h : see p.seen = some x) : Decides see giveUp s (earlier ++ p :: later) (.ok x)
  /-- The first late poll, if neither it nor one before saw anything. -/
  | late {earlier later : List (Poll γ)} {p : Poll γ}
      (hwaits : ∀ q ∈ earlier, see q.seen = none ∧ q.time < s.deadline)
      (h : see p.seen = none) (hlate : s.deadline ≤ p.time) :
      Decides see giveUp s (earlier ++ p :: later) (.error (giveUp p.seen))

/-- A late look decides. -/
theorem patient_late (x : γ) : patient see giveUp x true ≠ .again := by
  unfold patient
  split <;> nofun

/-- A poll decides nothing exactly if it sees nothing and is in time. -/
theorem finds_patient_eq_again_iff (q : Poll γ) :
    s.finds (patient see giveUp) q = .again ↔ see q.seen = none ∧ q.time < s.deadline := by
  unfold finds patient
  cases see q.seen with
  | some x => exact ⟨nofun, nofun⟩
  | none =>
    by_cases hlate : s.deadline ≤ q.time
    · rw [decide_eq_true hlate]
      exact ⟨nofun, fun h => absurd h.2 (Nat.not_lt_of_le hlate)⟩
    · rw [decide_eq_false hlate]
      exact ⟨fun _ => ⟨rfl, Nat.lt_of_not_le hlate⟩, fun _ => rfl⟩

/-- **What decides a search with patient looks.** -/
theorem run_patient_eq_settled_iff :
    s.run interval (patient see giveUp) polls = .settled result ↔
      Decides see giveUp s polls result := by
  rw [run_eq_settled_iff]
  simp only [finds_patient_eq_again_iff]
  constructor
  · rintro ⟨earlier, p, later, rfl, hwaits, hp⟩
    unfold finds patient at hp
    cases hsee : see p.seen with
    | some x =>
      rw [hsee] at hp
      cases hp
      exact .found hwaits hsee
    | none =>
      rw [hsee] at hp
      dsimp only at hp
      split at hp
      next hlate =>
        cases hp
        exact .late hwaits hsee (of_decide_eq_true hlate)
      next => cases hp
  · intro h
    cases h with
    | @found earlier later p x hwaits hsee =>
      refine ⟨earlier, p, later, rfl, hwaits, ?_⟩
      rw [finds, patient, hsee]
    | @late earlier later p hwaits hsee hlate =>
      refine ⟨earlier, p, later, rfl, hwaits, ?_⟩
      rw [finds, patient, hsee, decide_eq_true hlate]
      rfl

/-- A search with patient looks is decided after so many polls. -/
theorem exists_decides {timeout : Duration} {start : Nat} (hinterval : 0 < interval.nanoseconds)
    (h : (begin timeout start).Punctual interval polls)
    (hlength : timeout.nanoseconds / interval.nanoseconds + 1 < polls.length) :
    ∃ result, Decides see giveUp (begin timeout start) polls result := by
  obtain ⟨result, hrun⟩ := exists_run_eq_settled hinterval patient_late h hlength
  exact ⟨result, run_patient_eq_settled_iff.mp hrun⟩

end ExecutionNode.Sync.Search
