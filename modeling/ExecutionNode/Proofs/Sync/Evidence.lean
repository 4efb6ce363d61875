import ExecutionNode.Proofs.Sync.Runs
import Mathlib.Data.List.Induction

/-!
# What a catch-up rests on

A run that waits for the chain and the world state of a pivot block asked for both at some moment
of the history, and what it has of them it received at some moment, each time in a step of its own.
`Received` says so, and `received_after` shows it for every run in every history.  A run whose
catch-up ended well therefore has both, for the pivot block that it ended with
(`received_of_ended`).
-/

namespace ExecutionNode.Sync

namespace Synchronizer

variable {s₀ s : Synchronizer} {h : List Act} {run : Nat} {pivot : SealedHeader}
  {chainDone stateDone : Bool}

/-- A run asks for the chain and the world state of a pivot block. -/
def Asks (run : Nat) (pivot : SealedHeader) (s : Synchronizer) (a : Act) : Prop :=
  ∃ r event, a = .step r run event ∧ CatchUp.Requests s.book (s.act a).book pivot

/-- A run that waits for the chain of a pivot block receives it. -/
def GetsChain (run : Nat) (pivot : SealedHeader) (s : Synchronizer) (a : Act) : Prop :=
  ∃ r downloader arming stateDone, a = .step r run (.chainImported (.ok ())) ∧
    s.runs[run]? = some (.catchingUp downloader arming (.downloading pivot false stateDone))

/-- A run that waits for the world state of a pivot block receives it. -/
def GetsState (run : Nat) (pivot : SealedHeader) (s : Synchronizer) (a : Act) : Prop :=
  ∃ r downloader arming chainDone, a = .step r run (.stateDownloaded (.ok ())) ∧
    s.runs[run]? = some (.catchingUp downloader arming (.downloading pivot chainDone false))

/-- In a history a run asked for the chain and the world state of a pivot block, and received them
as far as they are said to be done. -/
structure Received (s₀ : Synchronizer) (h : List Act) (run : Nat) (pivot : SealedHeader)
    (chainDone stateDone : Bool) : Prop where
  /-- It asked for both. -/
  asked : Happened (Asks run pivot) s₀ h
  /-- It received the chain. -/
  chain : chainDone = true → Happened (GetsChain run pivot) s₀ h
  /-- It received the world state. -/
  state : stateDone = true → Happened (GetsState run pivot) s₀ h

/-- What was received has been received ever after. -/
theorem Received.later (hrec : Received s₀ h run pivot chainDone stateDone) (rest : List Act) :
    Received s₀ (h ++ rest) run pivot chainDone stateDone :=
  ⟨hrec.asked.later rest, fun hchain => (hrec.chain hchain).later rest,
    fun hstate => (hrec.state hstate).later rest⟩

/-- What a run receives just now adds to what it received. -/
theorem Received.receives {r : Replies} {event : Event} {downloader arming : Nat}
    {stage : CatchUp.Stage}
    (hrun : (s₀.after h).runs[run]? = some (.catchingUp downloader arming stage))
    (hevent : CatchUp.Receives pivot stage event chainDone stateDone)
    (hrec : ∀ chain state, stage = .downloading pivot chain state →
      Received s₀ h run pivot chain state) :
    Received s₀ (h ++ [.step r run event]) run pivot chainDone stateDone := by
  cases hevent with
  | chain =>
    have hbefore := (hrec false stateDone rfl).later [.step r run (.chainImported (.ok ()))]
    exact ⟨hbefore.asked, fun _ => .now ⟨r, downloader, arming, stateDone, rfl, hrun⟩,
      hbefore.state⟩
  | state =>
    have hbefore := (hrec chainDone false rfl).later [.step r run (.stateDownloaded (.ok ()))]
    exact ⟨hbefore.asked, hbefore.chain,
      fun _ => .now ⟨r, downloader, arming, chainDone, rfl, hrun⟩⟩

/-- A step after which a catch-up waits did what the catch-up did. -/
theorem book_resume_of_waiting {r : Replies} {event : Event} {downloader arming : Nat}
    {stage stage' : CatchUp.Stage} {c : CatchUp}
    (hrun : s.runs[run]? = some (.catchingUp downloader arming stage))
    (hc : s.catchUps[downloader]? = some c)
    (hturn : (c.resume r s.book arming stage event).turn = .waiting stage') :
    (s.resume r run event).book = (c.resume r s.book arming stage event).book := by
  unfold resume
  rw [hrun]
  dsimp only
  rw [hc]
  unfold afterCatchUp
  dsimp only
  rw [hturn]
  rfl

/-- **What a run waits for it asked for, and what it has it received**, in every history. -/
theorem received_after (hruns : s₀.runs = []) (h : List Act) {downloader arming : Nat}
    (hrun : (s₀.after h).runs[run]? =
      some (.catchingUp downloader arming (.downloading pivot chainDone stateDone))) :
    Received s₀ h run pivot chainDone stateDone := by
  induction h using List.reverseRecOn generalizing downloader arming chainDone stateDone with
  | nil =>
    rw [after_nil, hruns] at hrun
    cases hrun
  | append_singleton h a ih =>
    rw [after_concat] at hrun
    rcases run_act_cases (s₀.after h) a hrun with ⟨x, hx, rfl | ⟨r, event, rfl, hbecomes⟩⟩ | hnew
    · exact (ih hx).later [a]
    · cases hbecomes with
      | stays => exact (ih hx).later _
      | begins hpast => exact hpast.elim
      | completes _ _ _ hpast => exact hpast.elim
      | follows hpast => exact hpast.elim
      | @waits _ _ stage _ c hc hturn =>
        rcases CatchUp.downloading_of_waiting hturn with rfl | hreceives | ⟨rfl, rfl, hasks⟩
        · exact (ih hx).later _
        · refine .receives hx hreceives fun chain state hstage => ?_
          subst hstage
          exact ih hx
        · have hbook := book_resume_of_waiting hx hc hturn
          refine ⟨.now ⟨r, event, rfl, ?_⟩, Bool.noConfusion, Bool.noConfusion⟩
          dsimp only [act]
          rw [hbook]
          exact hasks
    · exact hnew.elim

/-- **A run whose catch-up ends well received the chain and the world state of its pivot block.** -/
theorem received_of_ended (hruns : s₀.runs = []) {r : Replies} {event : Event}
    {downloader arming : Nat} {stage : CatchUp.Stage} {c : CatchUp}
    (hrun : (s₀.after h).runs[run]? = some (.catchingUp downloader arming stage))
    (hturn : (c.resume r (s₀.after h).book arming stage event).turn = .ended (.ok pivot)) :
    Received s₀ (h ++ [.step r run event]) run pivot true true := by
  refine .receives hrun (CatchUp.receives_of_ended hturn) fun chain state hstage => ?_
  subst hstage
  exact received_after hruns h hrun

end Synchronizer

end ExecutionNode.Sync
