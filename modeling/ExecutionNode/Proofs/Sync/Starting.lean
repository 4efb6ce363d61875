import ExecutionNode.Proofs.Sync.Aftermath
import ExecutionNode.Proofs.Sync.Confined
import ExecutionNode.Proofs.Sync.Phase
import ExecutionNode.Proofs.Sync.Restart

/-!
# Where a synchronization is reported to have begun

The status of an active run tells the local head, the highest block known, and the local head when
the current synchronization began.  That last number is written by starting over and by nothing
else; a run that is merely started leaves it.  So it is the local head at the last time somebody
started over, or what the sync state said at first.

* `restartHead` is that number, told from the history.
* `starting_act` is the step: only to start over touches the number.
* `exists_begins`: every run began at some moment, and nobody started over while it is the latest
  (`startsOver_eq_false_of_begins`).
* `status_begins_at_restart`: what the status of the active run says.
* `started_run_begins_at_zero`: a run that is started at a height is reported to have begun at zero.
-/

namespace ExecutionNode.Sync

/-- A change of the progress does not begin the initial phase again. -/
def Progress.Change.Continues (c : Progress.Change) : Prop := c ≠ .restart

/-- A change that continues leaves the number at which the synchronization began. -/
theorem Progress.Change.Continues.starting_after {c : Progress.Change} (hc : c.Continues)
    (p : Progress) : (p.after c).starting = p.starting := by
  cases c with
  | restart => exact absurd rfl hc
  | _ => rfl

/-- Nobody from outside begins the initial phase again, also from inside a notice. -/
def Act.Continues : Act → Prop
  | .operate op => op.Confined Progress.Change.Continues
  | _ => True

namespace Synchronizer

variable {s s₀ : Synchronizer} {h : List Act} {a : Act} {run : Nat}

/-- The number at which the synchronization is reported to have begun. -/
def starting (s : Synchronizer) : UInt64 := s.state.progress.starting

/-- The local head. -/
def localHead (s : Synchronizer) : UInt64 := s.state.progress.localHead

/-! ### Starting over -/

/-- To start over writes the local head down. -/
theorem starting_resync (hs : s.state.Confined Progress.Change.Continues) (r r' : Replies) :
    (s.resync r r').2.state.Confined Progress.Change.Continues ∧
      (s.resync r r').2.starting = s.localHead := by
  have hbefore : ((s.stop r).callIf (s.stop r).catchUp?.isSome .deletePivot).state = s.state :=
    (state_callIf _ _ _).trans (s.state_stop r)
  unfold starting
  rw [state_start (s.start_discarded r r')]
  refine Logbook.confined_change (P := fun p => p.starting = s.localHead)
    (b := ((s.stop r).callIf (s.stop r).catchUp?.isSome .deletePivot).book)
    (fun p c hc hp => (hc.starting_after p).trans hp) ?_ ?_
  · rw [show Logbook.state _ = s.state from hbefore]
    exact hs
  · rw [show Logbook.state _ = s.state from hbefore]
    rfl

/-- **Only to start over touches the number at which the synchronization began.** -/
theorem starting_act (hs : s.state.Confined Progress.Change.Continues) (ha : a.Continues) :
    (s.act a).state.Confined Progress.Change.Continues ∧
      (s.act a).starting = if a.startsOver then s.localHead else s.starting := by
  have hkept : ∀ (p : Progress) (c : Progress.Change), c.Continues → p.starting = s.starting →
      (p.after c).starting = s.starting := fun p c hc hp => (hc.starting_after p).trans hp
  have hsame : ∀ {t : Synchronizer}, t.state = s.state →
      t.state.Confined Progress.Change.Continues ∧ t.starting = s.starting := by
    intro t ht
    unfold starting
    rw [ht]
    exact ⟨hs, rfl⟩
  cases a with
  | start r => exact hsame (s.state_act_start r)
  | stop r => exact hsame (s.state_stop r)
  | resync r r' => exact starting_resync hs r r'
  | step r run event =>
    refine (s.extends_resume r run event).confined (P := fun p => p.starting = s.starting) hkept
      (fun c hc p => hkept p c fun heq => ?_) hs rfl
    rw [heq] at hc
    cases hc
  | announce state => exact hsame (s.state_act_announce state)
  | operate op =>
    exact Logbook.confined_perform (P := fun p => p.starting = s.starting) hkept ha hs rfl

/-- The local head when somebody last started over in a history; another number if nobody did. -/
def restartHead (s : Synchronizer) (first : UInt64) : List Act → UInt64
  | [] => first
  | a :: h => (s.act a).restartHead (if a.startsOver then s.localHead else first) h

/-- Where nobody starts over the number is the first one. -/
theorem restartHead_of_not (s : Synchronizer) (first : UInt64)
    (hh : ∀ a ∈ h, a.startsOver = false) : s.restartHead first h = first := by
  induction h generalizing s with
  | nil => rfl
  | cons a h ih =>
    obtain ⟨ha, hrest⟩ := List.forall_mem_cons.mp hh
    rw [restartHead, ha, if_neg Bool.false_ne_true, ih _ hrest]

/-- **The synchronization is reported to have begun at the local head when somebody last started
over.** -/
theorem starting_after (hs : s.state.Confined Progress.Change.Continues)
    (hh : ∀ a ∈ h, a.Continues) :
    (s.after h).state.Confined Progress.Change.Continues ∧
      (s.after h).starting = s.restartHead s.starting h := by
  induction h generalizing s with
  | nil => exact ⟨hs, rfl⟩
  | cons a h ih =>
    obtain ⟨ha, hrest⟩ := List.forall_mem_cons.mp hh
    obtain ⟨hconfined, hstarting⟩ := starting_act hs ha
    rw [restartHead, ← hstarting]
    exact ih hconfined hrest

/-! ### Where a run began -/

/-- The run of a number begins. -/
def Begins (run : Nat) (s : Synchronizer) (a : Act) : Prop :=
  s.runs.length = run ∧ (s.act a).runs.length = run + 1

/-- **Every run began at some moment.** -/
theorem exists_begins (hruns : s.runs = []) (hlt : run < (s.after h).runs.length) :
    Happened (Begins run) s h := by
  induction h using List.reverseRecOn with
  | nil =>
    rw [after_nil, hruns] at hlt
    cases hlt
  | append_singleton h a ih =>
    rw [after_concat] at hlt
    by_cases hold : run < (s.after h).runs.length
    · exact (ih hold).later [a]
    · have hle := (s.after h).length_runs_act_le a
      exact .now ⟨by omega, by omega⟩

/-- While a run is the latest nobody started over since it began. -/
theorem startsOver_eq_false_of_begins (hbegins : Begins run s a) {rest : List Act}
    (hlast : run + 1 = ((s.act a).after rest).runs.length) :
    ∀ b ∈ rest, b.startsOver = false := by
  intro b hb
  cases hover : b.startsOver with
  | false => rfl
  | true =>
    cases b with
    | resync r r' =>
      obtain ⟨before, later, rfl⟩ := List.append_of_mem hb
      rw [after_append, after_cons] at hlast
      have hbefore := (s.act a).length_runs_after before
      have hadded := ((s.act a).after before).length_runs_resync r r'
      have hlater := (((s.act a).after before).resync r r').2.length_runs_after later
      have hnow := hbegins.2
      change run + 1 = ((((s.act a).after before).resync r r').2.after later).runs.length at hlast
      omega
    | _ => cases hover

/-! ### What is reported -/

/-- The status of an active run. -/
theorem status_of_running (hrunning : s.running = true) :
    s.status = if s.state.inSync then none
      else some ⟨s.starting, s.localHead, max s.state.progress.best s.localHead⟩ := by
  unfold status
  rw [if_pos hrunning]
  rfl

/-- The highest block is not below the local head. -/
theorem localHead_le_highest (best localHead : UInt64) : localHead ≤ max best localHead := by
  rw [show max best localHead = if best ≤ localHead then localHead else best from rfl]
  split
  · exact UInt64.le_refl _
  · next h => exact (UInt64.le_total best localHead).resolve_left h

/-- **What the status says of where a synchronization began.** Assemble a synchronizer and let
anything happen to it, in any order and whatever the collaborators answer, while nobody from outside
begins the initial phase again.

* The current run began at some moment of the history, and nobody started over since then.
* While the node is in sync there is no status.
* Otherwise there is one. It tells the local head, and as the highest block the best one that is
  known, or the local head if that is higher.
* If the run began by starting over, the synchronization is reported to have begun at the local head
  of that moment. If it was merely started, it is reported to have begun where somebody started over
  the last time before, and if nobody did, at the number that the sync state had at first. -/
theorem status_begins_at_restart {config : SyncConfig} {has : Collaborators} {isOver : Bool}
    {idle : Duration} {state : Option State}
    (hs : assemble config has isOver idle state = .ok s₀)
    (hconfined : s₀.state.Confined Progress.Change.Continues) (hh : ∀ a ∈ h, a.Continues)
    (hcurrent : (s₀.after h).isCurrent run = true) :
    let s := s₀.after h
    Happened (Begins run) s₀ h ∧
    ∀ past a rest, h = past ++ a :: rest → Begins run (s₀.after past) a →
      (∀ b ∈ rest, b.startsOver = false) ∧
      (s.state.inSync = true → s.status = none) ∧
      (s.state.inSync = false → ∃ status, s.status = some status ∧
        status.current = s.localHead ∧ status.current ≤ status.highest ∧
        status.highest = max s.state.progress.best s.localHead ∧
        status.starting = if a.startsOver then (s₀.after past).localHead
          else s₀.restartHead s₀.starting past) := by
  intro s
  obtain ⟨hpristine, -⟩ := pristine_assemble hs
  obtain ⟨hrunning, -⟩ := isCurrent_iff.mp hcurrent
  have hlast : run + 1 = s.runs.length := eq_length_of_isCurrent hcurrent
  have hstatus : s.status = _ := status_of_running hrunning
  refine ⟨exists_begins hpristine.runs (Nat.lt_of_succ_le (Nat.le_of_eq hlast)),
    fun past a rest hsplit hbegins => ?_⟩
  subst hsplit
  rw [List.forall_mem_append, List.forall_mem_cons] at hh
  obtain ⟨hpast, ha, hrest⟩ := hh
  have hafter : s = ((s₀.after past).act a).after rest := s₀.after_append past (a :: rest)
  have hsince : ∀ b ∈ rest, b.startsOver = false :=
    startsOver_eq_false_of_begins hbegins (by rw [← hafter]; exact hlast)
  -- the number is written when the run begins, if at all
  obtain ⟨hconfined₁, hbefore⟩ := starting_after hconfined hpast
  obtain ⟨hconfined₂, hbegun⟩ := starting_act hconfined₁ ha
  obtain ⟨-, hnow⟩ := starting_after hconfined₂ hrest
  rw [restartHead_of_not _ _ hsince, hbegun, hbefore, ← hafter] at hnow
  refine ⟨hsince, fun hinSync => ?_, fun hinSync => ?_⟩
  · rw [hstatus, if_pos hinSync]
  · rw [hstatus, hinSync]
    exact ⟨_, rfl, rfl, localHead_le_highest _ _, rfl, hnow⟩

/-- A synchronizer starts over at a height and goes on; that height is reported. -/
theorem status_begins_at_restart_of_resync :
    let past : List Act := [.operate (.change (.localHead 10)), .operate (.change (.best 100))]
    let a : Act := .resync (agreeable false) (agreeable false)
    let rest : List Act := [.operate (.change (.localHead 40))]
    let s := usual.after (past ++ a :: rest)
    assemble {} {} false FullSync.defaultIdle none = .ok usual ∧
      usual.state.Confined Progress.Change.Continues ∧ (∀ b ∈ past ++ a :: rest, b.Continues) ∧
      s.isCurrent 0 = true ∧ Begins 0 (usual.after past) a ∧ s.state.inSync = false ∧
      ∃ status, s.status = some status ∧ status.starting = 10 ∧ status.current = 40 := by
  intro past a rest s
  have hconfined : usual.state.Confined Progress.Change.Continues := fun l hl => nomatch hl
  have hh : ∀ b ∈ past ++ a :: rest, b.Continues := by
    simp only [past, a, rest, List.forall_mem_append, List.forall_mem_cons]
    exact ⟨⟨.change nofun, .change nofun, List.forall_mem_nil _⟩, trivial, .change nofun,
      List.forall_mem_nil _⟩
  have hbegins : Begins 0 (usual.after past) a := ⟨rfl, rfl⟩
  obtain ⟨-, hreported⟩ := status_begins_at_restart assemble_usual hconfined hh
    (rfl : s.isCurrent 0 = true)
  obtain ⟨-, -, hstatus⟩ := hreported past a rest rfl hbegins
  obtain ⟨status, hsome, hcurrent, -, -, hstarting⟩ := hstatus rfl
  exact ⟨assemble_usual, hconfined, hh, rfl, hbegins, rfl, status, hsome, hstarting, hcurrent⟩

/-- A synchronizer is started at a height, and reported to have begun at zero. -/
theorem started_run_begins_at_zero :
    let past : List Act := [.operate (.change (.localHead 10)), .operate (.change (.best 100))]
    let s := unpivoted.after (past ++ [.start (agreeable false), .step (agreeable true) 0 .begun])
    assemble { mode := .full } {} false FullSync.defaultIdle none = .ok unpivoted ∧
      Begins 0 (unpivoted.after past) (.start (agreeable false)) ∧ s.isCurrent 0 = true ∧
      s.state.inSync = false ∧ (unpivoted.after past).localHead = 10 ∧
      s.status = some ⟨0, 10, 100⟩ :=
  ⟨rfl, ⟨rfl, rfl⟩, rfl, rfl, rfl, rfl⟩

end Synchronizer

end ExecutionNode.Sync
