import ExecutionNode.Simulation.Script
import ExecutionNode.Sync.Search

/-!
# Runs in simulated time

A scene has something with runs, scripted collaborators, and a clock that moves only when it is
told to.  `settle` lets every run go on until it waits for the clock or for someone who is held
up; `advance` moves the clock from one awaited time to the next.  A time that is reached counts
as over.  Selections of a pivot block belong to the scene: they look, wait, and look again.
-/

namespace ExecutionNode.Simulation

open Sync

/-- What a run waits for. -/
inductive Wait where
  /-- Its first turn. -/
  | turn
  /-- A pivot block. -/
  | selection
  /-- The chain and the world state, or what of them is still missing. -/
  | downloads (chain state : Bool)
  /-- New blocks. -/
  | batch
  /-- The end of a pause. -/
  | pause (length : Duration)
  /-- Nothing: it is over. -/
  | nothing

/-- What a scene asks of the thing that has runs. -/
class HasRuns (σ : Type) where
  /-- What the runs wait for, and whether their stop signal went off. -/
  waits : σ → List (Wait × Bool)
  /-- A step of one run. -/
  resume : σ → Replies → Nat → Event → σ
  /-- The calls since they were last taken, and the thing without them. -/
  takeCalls : σ → List Call × σ

/-- A time that a run waits for. -/
inductive Timer where
  /-- The end of a pause. -/
  | pause (due : Nat)
  /-- The next look of a search for a pivot block. -/
  | look (search : Search)
  /-- The end of a search that broke down, which is due at once. -/
  | breakdown

/-- When the timer is due. -/
def Timer.due : Timer → Nat
  | pause due => due
  | look search => search.due
  | breakdown => 0

/-- What the clock shows when a scene begins, in nanoseconds. It has been running for an hour. -/
def clockStart : Nat := 3600 * 1000000000

/-- Something with runs, among scripted collaborators, at a time. -/
structure Scene (σ : Type) where
  /-- What has runs. -/
  subject : σ
  /-- What the collaborators will answer. -/
  script : Script
  /-- The selector of pivot blocks. -/
  selector : Selector
  /-- How long it waits between two looks. -/
  pollInterval : Duration
  /-- The time, in nanoseconds. -/
  now : Nat := clockStart
  /-- What runs wait for, by their number. -/
  timers : List (Nat × Timer) := []
  /-- The calls that were made. -/
  log : List Call := []

namespace Scene

variable {σ : Type} [HasRuns σ] (s : Scene σ)

/-- Sets the timer of a run. -/
def setTimer (run : Nat) (timer : Timer) : Scene σ :=
  { s with timers := (run, timer) :: s.timers.filter (·.1 ≠ run) }

/-- The timer of a run. -/
def timer? (run : Nat) : Option Timer := (s.timers.find? (·.1 = run)).map (·.2)

/-- Takes note of a call of a run, or of no run in particular. -/
def observe (s : Scene σ) (run : Option Nat) (call : Call) : Scene σ :=
  let s : Scene σ := { s with
    log := s.log ++ [call]
    script := s.script.observe call
    selector := s.selector.hear call }
  match call, run with
  | .selectPivot, some run =>
    match s.selector.search? s.now with
    | some search => s.setTimer run (.look search)
    | none => s.setTimer run .breakdown
  | _, _ => s

/-- Takes note of the calls that the subject made. -/
def collect (run : Option Nat) : Scene σ :=
  let (calls, subject) := HasRuns.takeCalls s.subject
  calls.foldl (fun s call => s.observe run call) { s with subject }

/-- Lets a run take a step. A run that begins to pause is woken when the pause is over. -/
def resume (run : Nat) (event : Event) : Scene σ :=
  let subject := HasRuns.resume s.subject s.script.replies run event
  let s := { s with subject }.collect run
  match (HasRuns.waits s.subject)[run]? with
  | some (.pause length, _) => s.setTimer run (.pause (s.now + length.nanoseconds))
  | _ => s

/-- Looks for a pivot block on behalf of a run. -/
def look (run : Nat) (search : Search) : Scene σ :=
  let (heads, script) :=
    if s.selector.readsHeads then s.script.nextHeads else ([], s.script)
  let s := { s with script }
  let s := if s.selector.readsHeads then s.observe none (.readHeads heads.length) else s
  match search.poll s.pollInterval (fun late => s.selector.look heads late) s.now with
  | .pending search => s.setTimer run (.look search)
  | .settled (.error e) => s.resume run (.selected (.error e))
  | .settled (.ok query) =>
    let s := s.observe none (.fetchHeader query)
    s.resume run (.selected (query.conclude (s.script.header query)))

/-- What happens next to a run, if it need not wait. -/
def step? (run : Nat) : Option (Scene σ) :=
  match (HasRuns.waits s.subject)[run]? with
  | none | some (.nothing, _) => none
  | some (_, true) => some (s.resume run .stopSignalled)
  | some (.turn, false) => some (s.resume run .begun)
  | some (.selection, false) =>
    match s.timer? run with
    | some (.look search) => if search.due ≤ s.now then some (s.look run search) else none
    | some .breakdown => some (s.resume run .panicked)
    | _ => none
  | some (.downloads chain state, false) =>
    let ready := (if chain then s.script.importedChain else none).or
      (if state then s.script.downloadedState else none)
    ready.map (s.resume run)
  | some (.batch, false) =>
    s.script.importedBatch.map fun (event, script) => { s with script }.resume run event
  | some (.pause _, false) =>
    match s.timer? run with
    | some (.pause due) => if due ≤ s.now then some (s.resume run .woken) else none
    | _ => none

/-- Lets the runs take so many steps, the earlier ones first. -/
def settleWithin : Nat → Scene σ → Scene σ
  | 0, s => s
  | fuel + 1, s =>
    match (List.range (HasRuns.waits s.subject).length).findSome? s.step? with
    | some s => settleWithin fuel s
    | none => s

/-- Lets the runs go on until all of them wait. Between two times a run takes at most a few steps
besides those for the batches. -/
def settle : Scene σ :=
  s.settleWithin (8 * ((HasRuns.waits s.subject).length + 1) + s.script.batches.length)

/-- The next time that a run waits for. -/
def nextDue? : Option Nat :=
  let awaits run := match (HasRuns.waits s.subject)[run]? with
    | some (.selection, false) | some (.pause _, false) => true
    | _ => false
  ((s.timers.filter fun t => awaits t.1).map (·.2.due)).min?

/-- Moves the clock to a time, over at most so many awaited times. -/
def advanceWithin (target : Nat) : Nat → Scene σ → Scene σ
  | 0, s => { s with now := target }.settle
  | fuel + 1, s =>
    match s.nextDue? with
    | some due =>
      if due ≤ target then advanceWithin target fuel { s with now := max s.now due }.settle
      else { s with now := target }.settle
    | none => { s with now := target }.settle

/-- Moves the clock on by so many milliseconds. Awaited times are whole milliseconds. -/
def advance (ms : Nat) : Scene σ :=
  s.advanceWithin (s.now + ms * 1000000) (ms + 1)

end Scene

end ExecutionNode.Simulation
