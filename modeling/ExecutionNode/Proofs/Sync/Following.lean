import ExecutionNode.Proofs.Sync.Kept
import ExecutionNode.Proofs.Sync.Release

/-!
# How a run follows the chain

To follow the chain a run begins full sync, asks whether the download should end, asks for blocks,
sets the heads that they lead to, and says at its end whether the download is over for good.
`Synchronizer.chain` are the calls by which all this is done, in their order, and every step of a
run adds something to it in three parts: what it does before it follows the chain, that it begins
to, and what it does from then on.

* `FullSync.turns_resume` is the inversion of a step of full sync, and `Pursues` says the same of a
  run: what it asks and says, and where that leaves it.
* `goes_resume` and `follows_resume` are the inversions of a step of a run, which has not begun to
  follow the chain or follows it.
* `newChain_of_not_step`: nothing but a step of a run adds to these calls.
-/

namespace ExecutionNode.Sync

/-- The calls by which the chain is followed. -/
def Call.followsChain : Call → Bool
  | startFullSync => true
  | consultTermination _ => true
  | importBatch => true
  | change (.localHead _) => true
  | change (.terminal _) => true
  | _ => false

/-- To prepare is not to follow the chain. -/
theorem Call.followsChain_of_prepares {c : Call} (h : c.prepares = true) :
    c.followsChain = false := by
  cases c with
  | change c =>
    cases c with
    | best _ => rfl
    | _ => cases h
  | startFullSync => cases h
  | consultTermination _ => cases h
  | importBatch => cases h
  | _ => rfl

/-- The calls of a run that does not follow the chain yet: a catch-up sets the head, and the run
goes on because the download is not over. -/
def Call.isEarly : Call → Bool
  | consultTermination isOver => !isOver
  | change (.localHead _) => true
  | _ => false

/-- Local heads are set. -/
def setHeads (heads : List UInt64) : List Call := heads.map fun head => .change (.localHead head)

/-- What a run does once full sync is over. -/
def closing (r : Replies) : List Call :=
  .consultTermination r.overAtEnd :: if r.overAtEnd then [.change (.terminal true)] else []

namespace Logbook

/-- A change by which the chain is followed comes last. -/
theorem chain_change_of (b : Logbook) {c : Progress.Change}
    (h : (Call.change c).followsChain = true) :
    (b.change c).only Call.followsChain = b.only Call.followsChain ++ [.change c] :=
  (b.only_change (fun _ => rfl) c).trans (b.only_call_of h)

/-- A change by which the chain is not followed does not matter. -/
theorem chain_change_of_not (b : Logbook) {c : Progress.Change}
    (h : (Call.change c).followsChain = false) :
    (b.change c).only Call.followsChain = b.only Call.followsChain :=
  (b.only_change (fun _ => rfl) c).trans (b.only_call_of_not h)

end Logbook

/-! ### Full sync -/

namespace FullSync

/-- The head that the blocks lead to which a run waited for. -/
def received : Stage → Event → List UInt64
  | .importing, .batchImported (.ok (some head)) => [head]
  | _, _ => []

/-- What a step of full sync does after it set the head, and where it leaves its run. -/
inductive Turns (f : FullSync) (r : Replies) (arming : Nat) :
    List Call → Turn Stage Unit → Prop where
  /-- It waits. -/
  | waits (stage : Stage) : Turns f r arming [] (.waiting stage)
  /-- The download is not over, and it asks for blocks. -/
  | asks (hover : r.overBeforeBatch = false) :
      Turns f r arming [.consultTermination false, .importBatch] (.waiting .importing)
  /-- The download is over. -/
  | ends (hover : r.overBeforeBatch = true) :
      Turns f r arming [.consultTermination true] (.ended (.ok ()))
  /-- It was stopped. -/
  | stops (hstopped : f.signal.hasStopped arming = true) : Turns f r arming [] (.ended (.ok ()))
  /-- It failed. -/
  | fails (e : RunError) : Turns f r arming [] (.ended (.error e))
  /-- It broke down. -/
  | breaks : Turns f r arming [] .panicked

variable (f : FullSync) (r : Replies) (b : Logbook) (arming : Nat)

/-- Full sync asks for blocks unless the download is over. -/
theorem turns_ask :
    ∃ calls, (f.ask r b).book.only Call.followsChain = b.only Call.followsChain ++ calls ∧
      Turns f r arming calls (f.ask r b).turn := by
  have hconsult : (b.call (.consultTermination r.overBeforeBatch)).only Call.followsChain =
      b.only Call.followsChain ++ [.consultTermination r.overBeforeBatch] := b.only_call_of rfl
  unfold ask
  dsimp only
  cases hover : r.overBeforeBatch with
  | true =>
    rw [hover] at hconsult
    exact ⟨_, hconsult, .ends hover⟩
  | false =>
    refine ⟨[.consultTermination false, .importBatch], ?_, .asks hover⟩
    rw [hover] at hconsult
    rw [if_neg Bool.false_ne_true, Logbook.only_call_of _ rfl, hconsult, List.append_assoc]
    rfl

/-- Full sync goes on after what it waited for. -/
theorem turns_advance (stage : Stage) (event : Event) :
    ∃ calls, (f.advance r b stage event).book.only Call.followsChain =
        b.only Call.followsChain ++ (setHeads (received stage event) ++ calls) ∧
      Turns f r arming calls (f.advance r b stage event).turn := by
  have hnothing : b.only Call.followsChain = b.only Call.followsChain ++ (setHeads [] ++ []) :=
    (List.append_nil _).symm
  unfold advance received
  split
  · exact f.turns_ask r b arming
  next head =>
    obtain ⟨calls, hcalls, hturns⟩ := f.turns_ask r (b.change (.localHead head)) arming
    refine ⟨calls, ?_, hturns⟩
    rw [hcalls, b.chain_change_of rfl, List.append_assoc]
    rfl
  · exact ⟨[], hnothing, .waits _⟩
  · exact ⟨[], hnothing, .fails _⟩
  · exact ⟨[], hnothing, .breaks⟩
  · exact f.turns_ask r b arming
  next hreceived _ _ _ _ =>
    refine ⟨[], ?_, .waits _⟩
    split
    · exact absurd rfl (hreceived _ rfl)
    · exact hnothing

/-- **What a step of full sync does, and where it leaves its run.** -/
theorem turns_resume (stage : Stage) (event : Event) :
    ∃ calls, (f.resume r b arming stage event).book.only Call.followsChain =
        b.only Call.followsChain ++ (setHeads (received stage event) ++ calls) ∧
      Turns f r arming calls (f.resume r b arming stage event).turn := by
  rw [book_resume, turn_resume]
  unfold work
  split
  · have hnothing : received stage .stopSignalled = [] := by
      cases stage <;> rfl
    rw [hnothing]
    split
    next hstopped => exact ⟨[], (List.append_nil _).symm, .stops hstopped⟩
    · exact ⟨[], (List.append_nil _).symm, .waits _⟩
  · exact f.turns_advance r b arming stage event

end FullSync

/-! ### Catching up -/

namespace CatchUp

variable (c : CatchUp) (r : Replies) (b : Logbook)

/-- **A catch-up sets heads at most**, of all by which the chain is followed. -/
theorem chain_resume (arming : Nat) (stage : Stage) (event : Event) :
    ∃ heads, (c.resume r b arming stage event).book.only Call.followsChain =
      b.only Call.followsChain ++ setHeads heads := by
  obtain ⟨calls, hbook, hcourse⟩ := c.course_resume r b arming stage event
  rw [hbook, b.only_make fun _ => rfl]
  obtain ⟨hprepares, -⟩ | ⟨pivot, -, rfl, -⟩ := hcourse.prepares_or_completes
  · have hnone : calls.filter Call.followsChain = [] := by
      rw [List.filter_eq_nil_iff]
      intro call hcall
      rw [Call.followsChain_of_prepares (hprepares call hcall)]
      exact Bool.false_ne_true
    rw [hnone]
    exact ⟨[], rfl⟩
  · exact ⟨[pivot.number], rfl⟩

end CatchUp

/-! ### Parts of a step -/

namespace Synchronizer

variable {s t u : Synchronizer} {run : Nat} {r : Replies}

/-- The calls that were made to follow the chain, in their order. -/
def chain (s : Synchronizer) : List Call := s.book.only Call.followsChain

/-- A step did this to follow the chain, and left its run so. -/
structure Does (s t : Synchronizer) (run : Nat) (calls : List Call) (x : Run) : Prop where
  /-- The calls came last. -/
  chain : t.chain = s.chain ++ calls
  /-- The other runs are as they were. -/
  runs : t.runs = s.runs.set run x
  /-- Full sync is there as before. -/
  fullSync : t.fullSync.isSome = s.fullSync.isSome

/-- What a run does to follow the chain, once it does or instead of it, and where that leaves it. -/
inductive Pursues (s : Synchronizer) (r : Replies) (run : Nat) : List Call → Run → Prop where
  /-- It does not end well. -/
  | rests {x : Run} (hx : x ≠ .ended (.ok ())) : Pursues s r run [] x
  /-- It was overtaken. -/
  | leaves (hcurrent : s.isCurrent run = false) : Pursues s r run [] (.ended (.ok ()))
  /-- The download is over as soon as the catch-up is complete. -/
  | lands (hover : r.overAfterCatchUp = true) :
      Pursues s r run [.consultTermination true, .change (.terminal true)] (.ended (.ok ()))
  /-- There is nothing to follow. -/
  | concludes (hnone : s.fullSync = none) : Pursues s r run (closing r) (.ended (.ok ()))
  /-- The download is not over, and it asks for blocks. -/
  | asks (arming : Nat) :
      Pursues s r run [.consultTermination false, .importBatch] (.following arming .importing)
  /-- The download is over. -/
  | ends : Pursues s r run (.consultTermination true :: closing r) (.ended (.ok ()))
  /-- It was stopped. -/
  | stops {f : FullSync} {arming : Nat} {stage : FullSync.Stage} (hf : s.fullSync = some f)
      (hrun : s.runs[run]? = some (.following arming stage))
      (hstopped : f.signal.hasStopped arming = true) :
      Pursues s r run (closing r) (.ended (.ok ()))

/-- What a run does before it follows the chain, and whether it begins to. -/
inductive Opens : List Call → Run → Prop where
  /-- It does not begin to. -/
  | holds {calls : List Call} {x : Run} (hcalls : ∀ c ∈ calls, c.isEarly = true)
      (hx : ∀ arming stage, x ≠ .following arming stage) : Opens calls x
  /-- It begins to. -/
  | begins {calls : List Call} {x : Run} (hcalls : ∀ c ∈ calls, c.isEarly = true)
      (hx : x.IsPast) : Opens (calls ++ [.startFullSync]) x

/-- What was done before comes before. -/
theorem Does.of_before (h : Does t u run calls x) (before : List Call)
    (hchain : t.chain = s.chain ++ before) (hruns : t.runs = s.runs)
    (hfullSync : t.fullSync.isSome = s.fullSync.isSome) :
    Does s u run (before ++ calls) x := by
  refine ⟨?_, ?_, h.fullSync.trans hfullSync⟩
  · rw [h.chain, hchain, List.append_assoc]
  · rw [h.runs, hruns]

/-- A run may do early what does not begin to follow the chain. -/
theorem Opens.of_early {before calls : List Call} {x : Run} (h : Opens calls x)
    (hbefore : ∀ c ∈ before, c.isEarly = true) : Opens (before ++ calls) x := by
  cases h with
  | holds hcalls hx => exact .holds (List.forall_mem_append.mpr ⟨hbefore, hcalls⟩) hx
  | begins hcalls hx =>
    rw [← List.append_assoc]
    exact .begins (List.forall_mem_append.mpr ⟨hbefore, hcalls⟩) hx

/-- What a run pursues depends on whether it is current, on full sync and on where it is. -/
theorem Pursues.congr {calls : List Call} {x : Run} (h : Pursues t r run calls x)
    (hcurrent : t.isCurrent run = s.isCurrent run) (hfullSync : t.fullSync = s.fullSync)
    (hruns : t.runs = s.runs) : Pursues s r run calls x := by
  cases h with
  | rests hx => exact .rests hx
  | leaves hovertaken => exact .leaves (hcurrent ▸ hovertaken)
  | lands hover => exact .lands hover
  | concludes hnone => exact .concludes (hfullSync ▸ hnone)
  | asks arming => exact .asks arming
  | ends => exact .ends
  | stops hf hrun hstopped => exact .stops (hfullSync ▸ hf) (hruns ▸ hrun) hstopped

/-- A step took a run on: it did what a run does before it follows the chain, and then what it
pursues. -/
def Goes (s t : Synchronizer) (r : Replies) (run : Nat) : Prop :=
  ∃ front tail x, Does s t run (front ++ tail) x ∧ Opens front x ∧ Pursues s r run tail x

/-- A run goes on in the same way if something early is done first. -/
theorem Goes.of_early (h : Goes t u r run) {before : List Call}
    (hbefore : ∀ c ∈ before, c.isEarly = true) (hchain : t.chain = s.chain ++ before)
    (hruns : t.runs = s.runs) (hcurrent : t.isCurrent run = s.isCurrent run)
    (hfullSync : t.fullSync = s.fullSync) : Goes s u r run := by
  obtain ⟨front, tail, x, hdoes, hopens, hpursues⟩ := h
  refine ⟨before ++ front, tail, x, ?_, hopens.of_early hbefore,
    hpursues.congr hcurrent hfullSync hruns⟩
  rw [List.append_assoc]
  exact hdoes.of_before _ hchain hruns (by rw [hfullSync])

/-- A run goes on in the same way if what is done first is not to follow the chain. -/
theorem Goes.of_chain_eq (h : Goes t u r run) (hchain : t.chain = s.chain)
    (hruns : t.runs = s.runs) (hcurrent : t.isCurrent run = s.isCurrent run)
    (hfullSync : t.fullSync = s.fullSync) : Goes s u r run :=
  h.of_early (List.forall_mem_nil _) (hchain.trans (List.append_nil _).symm) hruns hcurrent
    hfullSync

/-- A run may do what it pursues without that it follows the chain. -/
theorem Does.goes {calls : List Call} {x : Run} (h : Does s t run calls x)
    (hx : ∀ arming stage, x ≠ .following arming stage) (hpursues : Pursues s r run calls x) :
    Goes s t r run :=
  ⟨[], calls, x, h, .holds (List.forall_mem_nil _) hx, hpursues⟩

/-- The end of a run is not to follow the chain. -/
theorem does_finish (s : Synchronizer) (run : Nat) (result : Except RunError Unit) :
    Does s (s.finish run result) run [] (.ended result) := by
  refine ⟨?_, runs_finish s run result, ?_⟩
  · unfold finish windDown
    dsimp only
    rw [List.append_nil]
    split
    · exact (only_callIf_of_not _ _ rfl).trans (only_callIf_of_not _ _ rfl)
    · rfl
  · unfold finish windDown
    dsimp only
    split
    · rw [callIf_eq, callIf_eq]
      rfl
    · rfl

/-- A run that has nothing left to download says whether that is for good. -/
theorem does_conclude (s : Synchronizer) (r : Replies) (run : Nat) :
    Does s (s.conclude r run) run (closing r) (.ended (.ok ())) := by
  have hconsult : (s.call (.consultTermination r.overAtEnd)).chain =
      s.chain ++ [.consultTermination r.overAtEnd] := s.book.only_call_of rfl
  unfold conclude closing
  dsimp only
  split
  · refine (does_finish _ run _).of_before [_, _] ?_ rfl rfl
    rw [show ∀ t : Synchronizer, (t.change (.terminal true)).chain = t.chain ++ _ from
      fun t => t.book.chain_change_of rfl, hconsult, List.append_assoc]
    rfl
  · exact (does_finish _ run _).of_before [_] hconsult rfl rfl

/-- What a run does once full sync made a step. -/
theorem does_afterFullSync (run : Nat) {o : FullSync.Outcome} {f : FullSync} {arming : Nat}
    {before calls : List Call}
    (hchain : o.book.only Call.followsChain = s.chain ++ (before ++ calls))
    (hturns : f.Turns r arming calls o.turn) (hfullSync : s.fullSync.isSome = true) :
    ∃ tail x, Does s (s.afterFullSync r run arming o) run (before ++ tail) x ∧ x.IsPast ∧
      ((f.signal.hasStopped arming = true → Pursues s r run (closing r) (.ended (.ok ()))) →
        Pursues s r run tail x) := by
  have hnoted : ∀ {u : Synchronizer} {more : List Call} {x : Run},
      Does { s with fullSync := some o.fullSync, book := o.book } u run more x →
        Does s u run (before ++ (calls ++ more)) x := by
    intro u more x h
    rw [← List.append_assoc]
    exact h.of_before _ hchain rfl hfullSync.symm
  unfold afterFullSync
  dsimp only
  generalize o.turn = turn at hturns
  cases hturns with
  | waits stage => exact ⟨_, _, hnoted ⟨(List.append_nil _).symm, rfl, rfl⟩, trivial,
      fun _ => .rests nofun⟩
  | asks hover => exact ⟨_, _, hnoted ⟨(List.append_nil _).symm, rfl, rfl⟩, trivial,
      fun _ => .asks arming⟩
  | ends hover => exact ⟨_, _, hnoted (does_conclude _ r run), trivial, fun _ => .ends⟩
  | stops hstopped => exact ⟨_, _, hnoted (does_conclude _ r run), trivial, fun h => h hstopped⟩
  | fails e => exact ⟨_, _, hnoted (does_finish _ run _), trivial, fun _ => .rests nofun⟩
  | breaks => exact ⟨_, _, hnoted ⟨(List.append_nil _).symm, rfl, rfl⟩, trivial,
      fun _ => .rests nofun⟩

/-- A run that goes on with full sync begins to follow the chain, if there is one to follow. -/
theorem goes_follow (s : Synchronizer) (r : Replies) (run : Nat) :
    Goes s (s.follow r run) r run := by
  unfold follow
  split
  · have hruns := runs_callIf s s.prunes .startPruner
    have hcurrent : (s.callIf s.prunes .startPruner).isCurrent run = s.isCurrent run := by
      rw [callIf_eq]
      rfl
    have hfullSync : (s.callIf s.prunes .startPruner).fullSync = s.fullSync := by rw [callIf_eq]
    refine Goes.of_chain_eq ?_ (only_callIf_of_not s s.prunes rfl) hruns hcurrent hfullSync
    dsimp only
    generalize s.callIf s.prunes .startPruner = t
    cases hfull : t.fullSync with
    | none => exact (does_conclude t r run).goes nofun (.concludes hfull)
    | some f =>
      have hstart : (t.call .startFullSync).chain = t.chain ++ [.startFullSync] :=
        t.book.only_call_of rfl
      obtain ⟨calls, hcalls, hturns⟩ := f.start.turns_resume r (t.call .startFullSync).book
        f.start.signal.arms .fresh .begun
      obtain ⟨tail, x, hdoes, hpast, hpursues⟩ := does_afterFullSync run hcalls hturns
        (by exact hfull ▸ rfl)
      refine ⟨[.startFullSync], tail, x, hdoes.of_before _ hstart rfl rfl,
        .begins (List.forall_mem_nil _) hpast, ?_⟩
      refine (hpursues fun hstopped => ?_).congr rfl rfl rfl
      rw [show f.start.signal.hasStopped f.start.signal.arms = false from
        StopSignal.hasStopped_only _] at hstopped
      cases hstopped
  next hcurrent =>
    exact (does_finish s run _).goes nofun (.leaves ((Bool.not_eq_true _).mp hcurrent))

/-- To have missing nodes fetched on demand is not to follow the chain. -/
theorem chain_enableFallback (s : Synchronizer) (r : Replies) :
    (s.enableFallback r).chain = s.chain := by
  unfold enableFallback
  split
  · exact s.book.only_call_of_not rfl
  · rfl

/-- To have missing nodes fetched on demand makes no run current. -/
theorem isCurrent_enableFallback (s : Synchronizer) (r : Replies) (run : Nat) :
    (s.enableFallback r).isCurrent run = s.isCurrent run := by
  unfold enableFallback
  split <;> rfl

/-- To have missing nodes fetched on demand does not touch full sync. -/
theorem fullSync_enableFallback (s : Synchronizer) (r : Replies) :
    (s.enableFallback r).fullSync = s.fullSync := by
  unfold enableFallback
  split <;> rfl

/-- When the world state arrives it is asked whether the download is over. -/
theorem chain_arrived (s : Synchronizer) (r : Replies) (pivot : SealedHeader) :
    (s.arrived r pivot).chain = s.chain ++ [.consultTermination r.overAfterCatchUp] := by
  have hdone : ((((s.call .deletePivot).call (.anchor pivot)).call .closeSelector).change
      .initialDone).chain = s.chain :=
    (Logbook.chain_change_of_not _ rfl).trans ((Logbook.only_call_of_not _ rfl).trans
      ((Logbook.only_call_of_not _ rfl).trans (s.book.only_call_of_not rfl)))
  unfold arrived
  rw [show ∀ t : Synchronizer, (t.call (.consultTermination r.overAfterCatchUp)).chain =
    t.chain ++ _ from fun t => t.book.only_call_of rfl, chain_enableFallback, hdone]

/-- A run that hands over goes on with full sync, unless the download is over or something fails. -/
theorem goes_handOver (s : Synchronizer) (r : Replies) (run : Nat) (pivot : SealedHeader) :
    Goes s (s.handOver r run pivot) r run := by
  have hfails : ∀ (t : Synchronizer) (e : RunError), Goes t (t.finish run (.error e)) r run :=
    fun t e => (does_finish t run _).goes nofun (.rests nofun)
  have hdelete : (s.call .deletePivot).chain = s.chain := s.book.only_call_of_not rfl
  cases hfault : r.delete with
  | error f =>
    rw [s.handOver_of_delete_error run pivot hfault]
    exact (hfails _ _).of_chain_eq hdelete rfl rfl rfl
  | ok _ =>
    cases hfault' : r.anchor with
    | error f =>
      rw [s.handOver_of_anchor_error run pivot hfault hfault']
      exact (hfails _ _).of_chain_eq ((Logbook.only_call_of_not _ rfl).trans hdelete) rfl rfl rfl
    | ok _ =>
      have hchain := s.chain_arrived r pivot
      have hruns : (s.arrived r pivot).runs = s.runs := runs_enableFallback _ r
      have hfullSync : (s.arrived r pivot).fullSync = s.fullSync := s.fullSync_arrived r pivot
      have hcurrent : (s.arrived r pivot).isCurrent run = s.isCurrent run :=
        isCurrent_enableFallback _ r run
      rw [s.handOver_of_ok run pivot hfault hfault']
      generalize s.arrived r pivot = t at hchain hruns hfullSync hcurrent
      cases hover : r.overAfterCatchUp with
      | true =>
        rw [hover] at hchain
        have htold : (t.change (.terminal true)).chain =
            s.chain ++ [.consultTermination true, .change (.terminal true)] := by
          rw [show (t.change (.terminal true)).chain = t.chain ++ _ from
            t.book.chain_change_of rfl, hchain, List.append_assoc]
          rfl
        have hdoes := (does_finish (t.change (.terminal true)) run (.ok ())).of_before [_, _] htold
          hruns (by exact hfullSync ▸ rfl)
        rw [if_pos rfl]
        exact hdoes.goes nofun (.lands hover)
      | false =>
        rw [hover] at hchain
        rw [if_neg Bool.false_ne_true]
        exact (t.goes_follow r run).of_early (List.forall_mem_singleton.mpr rfl) hchain hruns
          hcurrent hfullSync

/-- A catch-up sets heads at most, and its run hands over when it is complete. -/
theorem goes_afterCatchUp {o : CatchUp.Outcome} {heads : List UInt64} (s : Synchronizer)
    (r : Replies) (run downloader arming : Nat)
    (hchain : o.book.only Call.followsChain = s.chain ++ setHeads heads) :
    Goes s (s.afterCatchUp r run downloader arming o) r run := by
  have hearly : ∀ c ∈ setHeads heads, c.isEarly = true := List.forall_mem_map.mpr fun _ _ => rfl
  have hset : ∀ (t : Synchronizer) (x : Run), Does t (t.setRun run x) run [] x :=
    fun t x => ⟨(List.append_nil _).symm, rfl, rfl⟩
  unfold afterCatchUp
  dsimp only
  refine Goes.of_early (t := { s with
    catchUps := s.catchUps.set downloader o.catchUp, book := o.book }) ?_ hearly hchain rfl rfl rfl
  split
  · exact (hset _ _).goes nofun (.rests nofun)
  · exact (hset _ _).goes nofun (.rests nofun)
  · split
    · split
      next pivot _ => exact goes_handOver _ r run pivot
      next e _ => exact (does_finish _ run _).goes nofun (.rests nofun)
    next hcurrent =>
      exact (does_finish _ run _).goes nofun (.leaves ((Bool.not_eq_true _).mp hcurrent))

/-! ### Steps of a run -/

/-- **What a step does of a run that does not follow the chain yet.** -/
theorem goes_resume {x : Run} (hx : s.runs[run]? = some x) (hpast : ¬ x.IsPast) (r : Replies)
    (event : Event) : Goes s (s.resume r run event) r run := by
  have hstays : (∀ arming stage, x ≠ .following arming stage) → x ≠ .ended (.ok ()) →
      Goes s s r run := by
    intro hfollows hended
    refine Does.goes ⟨(List.append_nil _).symm, ?_, rfl⟩ hfollows (.rests hended)
    obtain ⟨hlt, rfl⟩ := List.getElem?_eq_some_iff.mp hx
    exact (List.set_getElem_self hlt).symm
  unfold resume
  rw [hx]
  cases x with
  | fresh =>
    dsimp only
    split
    · have hchain : ((s.change .initialDone).enableFallback r).chain = s.chain :=
        (chain_enableFallback _ r).trans (s.book.chain_change_of_not rfl)
      exact (goes_follow _ r run).of_chain_eq hchain (runs_enableFallback _ r)
        (isCurrent_enableFallback _ r run) (fullSync_enableFallback _ r)
    · exact hstays nofun nofun
  | catchingUp downloader arming stage =>
    dsimp only
    split
    next c _ =>
      obtain ⟨heads, hchain⟩ := c.chain_resume r s.book arming stage event
      exact s.goes_afterCatchUp r run downloader arming hchain
    · exact hstays nofun nofun
  | following _ _ => exact absurd trivial hpast
  | ended _ => exact absurd trivial hpast
  | panicked => exact absurd trivial hpast

/-- A run that follows the chain listens to full sync. -/
theorem listens_of_following {arming : Nat} {stage : FullSync.Stage}
    (hrun : s.runs[run]? = some (.following arming stage)) :
    s.wiring.Listens run .fullSync arming := by
  simp [Wiring.Listens, wiring, hrun, Run.listens?]

/-- A run that follows the chain has full sync to do it with. -/
theorem exists_fullSync_of_sound (h : s.wiring.Sound) {arming : Nat} {stage : FullSync.Stage}
    (hrun : s.runs[run]? = some (.following arming stage)) : ∃ f, s.fullSync = some f := by
  obtain ⟨σ, hσ, -⟩ := h.heard (listens_of_following hrun)
  obtain ⟨f, hf, -⟩ := Option.map_eq_some_iff.mp hσ
  exact ⟨f, hf⟩

/-- For the current run the stop signal of full sync did not go off. -/
theorem hasStopped_fullSync_of_current (h : s.wiring.Sound) (hcurrent : s.isCurrent run = true)
    {arming : Nat} {stage : FullSync.Stage} {f : FullSync}
    (hrun : s.runs[run]? = some (.following arming stage)) (hf : s.fullSync = some f) :
    f.signal.hasStopped arming = false := by
  obtain ⟨honly, -⟩ := h.current (listens_of_following hrun) (isCurrent_iff.mp hcurrent)
  rw [Option.some.inj ((signal?_of_fullSync hf).symm.trans honly)]
  exact StopSignal.hasStopped_only arming

/-- **What a step does of a run that follows the chain.** -/
theorem follows_resume (hsound : s.wiring.Sound) {arming : Nat} {stage : FullSync.Stage}
    (hx : s.runs[run]? = some (.following arming stage)) (r : Replies) (event : Event) :
    ∃ tail x', Does s (s.resume r run event) run
        (setHeads (FullSync.received stage event) ++ tail) x' ∧ x'.IsPast ∧
      Pursues s r run tail x' := by
  obtain ⟨f, hf⟩ := exists_fullSync_of_sound hsound hx
  obtain ⟨calls, hcalls, hturns⟩ := f.turns_resume r s.book arming stage event
  obtain ⟨tail, x', hdoes, hpast, hpursues⟩ := does_afterFullSync run hcalls hturns (hf ▸ rfl)
  unfold resume
  rw [hx, hf]
  exact ⟨tail, x', hdoes, hpast, hpursues fun hstopped => .stops hf hx hstopped⟩

/-- **What a step does**: nothing, or what a run does before it follows the chain, and then what it
pursues. -/
theorem resume_cases (hsound : s.wiring.Sound) (r : Replies) (run : Nat) (event : Event) :
    s.resume r run event = s ∨ ∃ front tail x', run < s.runs.length ∧
      Does s (s.resume r run event) run (front ++ tail) x' ∧
      (∀ c ∈ front, c.isEarly = true ∨ c = .startFullSync) ∧ Pursues s r run tail x' := by
  cases hx : s.runs[run]? with
  | none => exact .inl (resume_of_none hx r event)
  | some x =>
    have hlt : run < s.runs.length := (List.getElem?_eq_some_iff.mp hx).1
    have hopens : ¬ x.IsPast → ∃ front tail x', run < s.runs.length ∧
        Does s (s.resume r run event) run (front ++ tail) x' ∧
        (∀ c ∈ front, c.isEarly = true ∨ c = .startFullSync) ∧ Pursues s r run tail x' := by
      intro hpast
      obtain ⟨front, tail, x', hdoes, hopens, hpursues⟩ := goes_resume hx hpast r event
      refine ⟨front, tail, x', hlt, hdoes, ?_, hpursues⟩
      cases hopens with
      | holds hcalls _ => exact fun c hc => .inl (hcalls c hc)
      | begins hcalls _ =>
        exact List.forall_mem_append.mpr
          ⟨fun c hc => .inl (hcalls c hc), List.forall_mem_singleton.mpr (.inr rfl)⟩
    cases x with
    | fresh => exact .inr (hopens id)
    | catchingUp _ _ _ => exact .inr (hopens id)
    | following arming stage =>
      obtain ⟨tail, x', hdoes, -, hpursues⟩ := follows_resume hsound hx r event
      exact .inr ⟨_, tail, x', hlt, hdoes, List.forall_mem_map.mpr fun _ _ => .inl rfl, hpursues⟩
    | ended result => exact .inl (resume_of_ended hx r event)
    | panicked => exact .inl (resume_of_panicked hx r event)

/-! ### Everything that happens -/

/-- What is done to follow the chain when something happens. -/
def newChain (s : Synchronizer) (a : Act) : List Call := (s.newCalls a).filter Call.followsChain

/-- What is done to follow the chain comes last. -/
theorem chain_act (s : Synchronizer) (a : Act) : (s.act a).chain = s.chain ++ s.newChain a := by
  unfold chain Logbook.only newChain
  rw [calls_act, List.filter_append]

/-- What a step does is what is new. -/
theorem Does.newChain_eq {event : Event} {calls : List Call} {x : Run}
    (h : Does s (s.resume r run event) run calls x) : s.newChain (.step r run event) = calls :=
  List.append_cancel_left ((s.chain_act (.step r run event)).symm.trans h.chain)

/-- If nothing happens nothing is new. -/
theorem newChain_of_act_eq {a : Act} (h : s.act a = s) : s.newChain a = [] := by
  have hchain := s.chain_act a
  rw [h] at hchain
  exact List.append_right_eq_self.mp hchain.symm

/-- To stop is not to follow the chain. -/
theorem chain_stop (s : Synchronizer) (r : Replies) : (s.stop r).chain = s.chain := by
  cases hrunning : s.running with
  | false => rw [stop_of_not_running hrunning]
  | true =>
    rw [stop_of_running hrunning]
    exact (only_callIf_of_not _ _ rfl).trans (only_callIf_of_not _ _ rfl)

/-- To start is not to follow the chain. -/
theorem chain_start (ht : s.start r = .ok t) : t.chain = s.chain := by
  cases hrunning : s.running with
  | false =>
    rw [start_of_not_running hrunning] at ht
    rw [← Except.ok.inj ht]
    exact only_callIf_of_not _ _ rfl
  | true => rw [start_of_running hrunning] at ht; cases ht

/-- To start over is not to follow the chain. -/
theorem chain_resync (s : Synchronizer) (r r' : Replies) : (s.resync r r').2.chain = s.chain := by
  have hdiscarded : (s.discarded r).chain = s.chain :=
    (Logbook.chain_change_of_not _ rfl).trans
      ((only_callIf_of_not _ _ rfl).trans (s.chain_stop r))
  exact (chain_start (s.start_discarded r r')).trans hdiscarded

/-- **Nothing but a step of a run follows the chain.** -/
theorem newChain_of_not_step (s : Synchronizer) {a : Act}
    (ha : ∀ r run event, a ≠ .step r run event) : s.newChain a = [] := by
  have hsame : (s.act a).chain = s.chain := by
    cases a with
    | start r =>
      cases hstart : s.start r with
      | error e => rw [act_start_of_error hstart]
      | ok t => rw [act_start_of_ok hstart, chain_start hstart]
    | stop r => exact s.chain_stop r
    | resync r r' => exact s.chain_resync r r'
    | step r run event => exact absurd rfl (ha r run event)
    | announce state => exact (only_callIf_of_not _ _ rfl).trans (only_callIf_of_not _ _ rfl)
    | operate op => exact s.book.only_perform (fun _ => rfl) op
  rw [chain_act] at hsame
  exact List.append_right_eq_self.mp hsame

/-- To stop leaves full sync there. -/
theorem isSome_fullSync_stop (s : Synchronizer) (r : Replies) :
    (s.stop r).fullSync.isSome = s.fullSync.isSome := by
  cases hrunning : s.running with
  | false => rw [stop_of_not_running hrunning]
  | true =>
    rw [stop_of_running hrunning, callIf_eq, callIf_eq]
    exact Option.isSome_map

/-- To start leaves full sync there. -/
theorem fullSync_start (ht : s.start r = .ok t) : t.fullSync = s.fullSync := by
  cases hrunning : s.running with
  | false =>
    rw [start_of_not_running hrunning] at ht
    rw [← Except.ok.inj ht, callIf_eq]
  | true => rw [start_of_running hrunning] at ht; cases ht

/-- **Whatever happens, full sync is there as before.** -/
theorem isSome_fullSync_act (hsound : s.wiring.Sound) (a : Act) :
    (s.act a).fullSync.isSome = s.fullSync.isSome := by
  cases a with
  | start r =>
    cases hstart : s.start r with
    | error e => rw [act_start_of_error hstart]
    | ok t => rw [act_start_of_ok hstart, fullSync_start hstart]
  | stop r => exact s.isSome_fullSync_stop r
  | resync r r' =>
    have hdiscarded : (s.discarded r).fullSync = (s.stop r).fullSync := by
      unfold discarded
      rw [callIf_eq]
      rfl
    rw [show s.act (.resync r r') = (s.resync r r').2 from rfl,
      fullSync_start (s.start_discarded r r'), hdiscarded, isSome_fullSync_stop]
  | step r run event =>
    rcases resume_cases hsound r run event with hsame | ⟨_, _, _, -, hdoes, -⟩
    · exact congrArg (fun t : Synchronizer => t.fullSync.isSome) hsame
    · exact hdoes.fullSync
  | announce state =>
    dsimp only [act, announce]
    rw [callIf_eq, callIf_eq]
  | operate op => rfl

end Synchronizer

end ExecutionNode.Sync
