import ExecutionNode.Simulation.Scene

/-!
# Selections in simulated time

A selector alone can be put into a scene.  A round of such a simulation announces something to
the selector, has it choose a pivot block, announces more at given times while it looks, and
waits for the result.
-/

namespace ExecutionNode.Simulation

open Sync

/-- Selections of a pivot block, each with its result. -/
structure Selections where
  /-- The results so far. -/
  results : List (Option (Except PivotError SealedHeader)) := []

instance : HasRuns Selections where
  waits s := s.results.map fun
    | some _ => (.nothing, false)
    | none => (.selection, false)
  resume s _ run event :=
    match event with
    | .selected result => { s with results := s.results.set run (some result) }
    | _ => s
  takeCalls s := ([], s)

/-- What a selector is told. -/
inductive Announcement where
  /-- A forkchoice state. -/
  | state (state : ForkchoiceState)
  /-- That it is not needed for now. -/
  | close

/-- A round: what is announced before the selection, and what at which time after its start, in
nanoseconds. -/
structure Round where
  /-- What is announced before. -/
  before : List Announcement
  /-- What is announced after the start, in the order of the times. -/
  during : List (Nat × Announcement)

namespace Scene

variable (s : Scene Selections)

/-- Tells the selector something. -/
def announce (a : Announcement) : Scene Selections :=
  match a with
  | .state state => { s with selector := s.selector.announce state }
  | .close => { s with selector := s.selector.close }

/-- Begins a selection. -/
def beginSelection : Scene Selections :=
  let run := s.subject.results.length
  let subject : Selections := ⟨s.subject.results ++ [none]⟩
  ({ s with subject }.observe (some run) .selectPivot).settle

/-- The result of the latest selection. -/
def latest? : Option (Except PivotError SealedHeader) := s.subject.results.getLast?.join

/-- Lets the latest selection end and makes all announcements at their times, in so many steps.
What is due at the time of an announcement comes first. Says when the selection ended, too. -/
def playWithin : Nat → List (Nat × Announcement) → Option Nat → Scene Selections →
    Scene Selections × Option Nat
  | 0, _, ended, s => (s, ended)
  | fuel + 1, events, ended, s =>
    let ended := ended.or (if s.latest?.isSome then some s.now else none)
    match events, s.nextDue? with
    | [], none => (s, ended)
    | [], some due => playWithin fuel [] ended { s with now := max s.now due }.settle
    | (time, a) :: rest, none =>
      playWithin fuel rest ended ({ s with now := max s.now time }.announce a)
    | (time, a) :: rest, some due =>
      if due ≤ time then playWithin fuel events ended { s with now := max s.now due }.settle
      else playWithin fuel rest ended ({ s with now := max s.now time }.announce a)

/-- Plays a round and says how long the selection took, in nanoseconds. -/
def play (round : Round) : Scene Selections × Nat :=
  let s := round.before.foldl announce s
  let start := s.now
  let during := round.during.map fun (time, a) => (start + time, a)
  let looks := s.selector.timeout.nanoseconds / max s.pollInterval.nanoseconds 1 + 2
  let (s, ended) := s.beginSelection.playWithin (during.length + looks + 1) during none
  (s, ended.getD s.now - start)

end Scene

end ExecutionNode.Simulation
