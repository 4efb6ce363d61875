import ExecutionNode.Proofs.Sync.Wiring
import Mathlib.Data.List.Induction

/-!
# The armings of a stop signal are kept apart

A stop signal is armed for every run anew, and every run listens with a receiver of its own, which
may be cloned.  What a receiver is told must not depend on the runs before or after its own, except
that the next arming ends it.  Here this is said of whole histories of one signal, in terms of what
was done to it and when.

* `Action` is what can be done, `after` what comes of it.  In a `Possible` history nobody clones or
  drops a receiver that is not there.
* `armings`, `TriggeredIn` and `Kept` tell from the history how often the signal was armed, whether
  it was triggered between an arming and the next, and whether an arming has a receiver left.
* `held_after` and `receivers_after` are what the signal remembers of them, each by induction over
  the history.
* `Switchboard` is the signal as it is wired: every arming has a channel, and the signal keeps the
  sender of the last one until it is triggered or armed again.  `shows_after` says that the signal
  shows of the channels what anyone can see of them.
* `armings_apart`: what the receivers of an arming are told, and when the signal counts as armed.
-/

namespace ExecutionNode.Sync

namespace StopSignal

/-- What can be done to a stop signal and its receivers. -/
inductive Action where
  /-- It is armed. -/
  | arm
  /-- It is triggered. -/
  | trigger
  /-- A receiver of an arming is cloned. -/
  | share (arming : Nat)
  /-- A receiver of an arming is dropped. -/
  | drop (arming : Nat)
deriving DecidableEq

/-- A signal after something was done to it. -/
def act (s : StopSignal) : Action → StopSignal
  | .arm => s.arm
  | .trigger => s.trigger
  | .share arming => s.share arming
  | .drop arming => s.drop arming

/-- A new signal after a history. -/
def after (h : List Action) : StopSignal := h.foldl act {}

theorem after_concat (h : List Action) (a : Action) : after (h ++ [a]) = (after h).act a := by
  simp [after]

/-! ### What a history tells -/

/-- How often the signal was armed. -/
def armings (h : List Action) : Nat := h.count .arm

/-- The signal was triggered between the arming of a number and the next. -/
def TriggeredIn (arming : Nat) (h : List Action) : Prop :=
  ∃ past rest, h = past ++ .trigger :: rest ∧ armings past = arming

/-- An arming took place, and of its receiver and the clones of it not all were dropped. -/
def Kept (arming : Nat) (h : List Action) : Prop :=
  0 < arming ∧ arming ≤ armings h ∧ h.count (.drop arming) < h.count (.share arming) + 1

instance (arming : Nat) (h : List Action) : Decidable (Kept arming h) :=
  inferInstanceAs (Decidable (_ ∧ _ ∧ _))

/-- The histories in which nobody clones or drops a receiver that is not there. -/
inductive Possible : List Action → Prop where
  /-- Nothing was done. -/
  | nil : Possible []
  /-- The signal is armed. -/
  | arm {h : List Action} (before : Possible h) : Possible (h ++ [.arm])
  /-- The signal is triggered. -/
  | trigger {h : List Action} (before : Possible h) : Possible (h ++ [.trigger])
  /-- A receiver is cloned. -/
  | share {h : List Action} {arming : Nat} (before : Possible h) (kept : Kept arming h) :
    Possible (h ++ [.share arming])
  /-- A receiver is dropped. -/
  | drop {h : List Action} {arming : Nat} (before : Possible h) (kept : Kept arming h) :
    Possible (h ++ [.drop arming])

variable {h : List Action} {a : Action} {arming : Nat}

theorem armings_concat (h : List Action) (a : Action) :
    armings (h ++ [a]) = armings h + if a = .arm then 1 else 0 := by
  simp [armings, List.count_singleton]

/-- Only the last action of a history can add that the signal was triggered. -/
theorem triggeredIn_concat : TriggeredIn arming (h ++ [a]) ↔
    TriggeredIn arming h ∨ a = .trigger ∧ armings h = arming := by
  constructor
  · rintro ⟨past, rest, heq, hpast⟩
    rcases concat_eq_append_cons.mp heq with ⟨rfl, rfl, -⟩ | ⟨rest, -, rfl⟩
    · exact .inr ⟨rfl, hpast⟩
    · exact .inl ⟨past, rest, rfl, hpast⟩
  · rintro (⟨past, rest, rfl, hpast⟩ | ⟨rfl, harmings⟩)
    · exact ⟨past, rest ++ [a], by simp, hpast⟩
    · exact ⟨h, [], rfl, harmings⟩

/-- The signal is triggered after armings that took place. -/
theorem TriggeredIn.le_armings (ht : TriggeredIn arming h) : arming ≤ armings h := by
  obtain ⟨past, rest, rfl, rfl⟩ := ht
  simp [armings]

/-- Nobody touched a receiver of an arming that is yet to come. -/
theorem Possible.count_eq_zero (hp : Possible h) (harming : armings h < arming) :
    h.count (.share arming) = 0 ∧ h.count (.drop arming) = 0 := by
  induction hp with
  | nil => simp
  | arm _ ih =>
    rw [armings_concat, if_pos rfl] at harming
    simpa using ih (by omega)
  | trigger _ ih => simpa [armings_concat] using ih (by simpa [armings_concat] using harming)
  | @share h other _ kept ih | @drop h other _ kept ih =>
    have hbefore : armings h < arming := by simpa [armings_concat] using harming
    have hne : other ≠ arming := Nat.ne_of_lt (Nat.lt_of_le_of_lt kept.2.1 hbefore)
    simpa [hne] using ih hbefore

/-! ### What the signal remembers -/

/-- Only to arm a signal counts as an arming. -/
theorem arms_act (s : StopSignal) (a : Action) :
    (s.act a).arms = s.arms + if a = .arm then 1 else 0 := by
  cases a with
  | arm => rfl
  | trigger => rfl
  | share arming =>
    simp only [act, share]
    split <;> rfl
  | drop arming => exact s.arms_drop arming

/-- A signal is held by arming it, and no longer held by triggering it. -/
theorem held_act (s : StopSignal) (a : Action) :
    (s.act a).held = true ↔ a = .arm ∨ a ≠ .trigger ∧ s.held = true := by
  cases a with
  | arm => simp [act, arm]
  | trigger => simp [act, trigger]
  | share arming =>
    simp only [act, share]
    split <;> simp
  | drop arming =>
    simp only [act, drop]
    split <;> simp

/-- The signal counts its armings. -/
theorem arms_after (h : List Action) : (after h).arms = armings h := by
  induction h using List.reverseRecOn with
  | nil => rfl
  | append_singleton h a ih => rw [after_concat, arms_act, armings_concat, ih]

/-- **The signal is held from its last arming until it is triggered.** -/
theorem held_after (h : List Action) :
    (after h).held = true ↔ 0 < armings h ∧ ¬ TriggeredIn (armings h) h := by
  induction h using List.reverseRecOn with
  | nil => simp [after, armings]
  | append_singleton h a ih =>
    rw [after_concat, held_act, ih, triggeredIn_concat, armings_concat]
    by_cases harm : a = .arm
    · -- what was triggered so far was triggered in an earlier arming
      have hnot : ¬ TriggeredIn (armings h + 1) h := fun ht =>
        absurd ht.le_armings (Nat.not_succ_le_self _)
      simp [harm, hnot]
    · simp only [harm, if_false, Nat.add_zero, false_or]
      tauto

/-- **The signal counts the receivers of its last arming**: the first one and the clones, without
those that were dropped. -/
theorem receivers_after (hp : Possible h) (harmed : 0 < armings h) :
    (after h).receivers + h.count (.drop (armings h)) = h.count (.share (armings h)) + 1 := by
  induction hp with
  | nil => exact absurd harmed (Nat.lt_irrefl 0)
  | @arm h before ih =>
    obtain ⟨hshare, hdrop⟩ := before.count_eq_zero (Nat.lt_succ_self (armings h))
    simp [after_concat, armings_concat, act, arm, hshare, hdrop]
  | trigger _ ih =>
    simp only [armings_concat, reduceCtorEq, if_false, Nat.add_zero] at harmed ⊢
    simpa [after_concat, act, trigger] using ih harmed
  | @share h arming _ kept ih =>
    simp only [armings_concat, reduceCtorEq, if_false, Nat.add_zero] at harmed ⊢
    have hbefore := ih harmed
    by_cases harming : arming = armings h
    · subst harming
      have hreceivers : (after (h ++ [.share (armings h)])).receivers =
          (after h).receivers + 1 := by
        simp [after_concat, act, share, arms_after]
      simp only [hreceivers, List.count_append, List.count_singleton_self, List.count_singleton,
        reduceCtorEq, beq_iff_eq, if_false]
      omega
    · simpa [after_concat, act, share, arms_after, harming] using hbefore
  | @drop h arming _ kept ih =>
    simp only [armings_concat, reduceCtorEq, if_false, Nat.add_zero] at harmed ⊢
    have hbefore := ih harmed
    by_cases harming : arming = armings h
    · subst harming
      have hreceivers : (after (h ++ [.drop (armings h)])).receivers =
          (after h).receivers - 1 := by
        simp [after_concat, act, drop, arms_after]
      -- a receiver that is dropped is there, so that the difference is one
      have hkept := kept.2.2
      simp only [hreceivers, List.count_append, List.count_singleton_self, List.count_singleton,
        reduceCtorEq, beq_iff_eq, if_false]
      omega
    · simpa [after_concat, act, drop, arms_after, harming] using hbefore

/-- **The signal goes off for an arming if it is triggered before the next, or armed again.** -/
theorem hasStopped_after_iff (hpos : 0 < arming) (hle : arming ≤ armings h) :
    (after h).hasStopped arming = true ↔ TriggeredIn arming h ∨ arming < armings h := by
  rw [hasStopped, Bool.or_eq_true, bne_iff_ne, arms_after, Bool.not_eq_true',
    ← Bool.not_eq_true, held_after]
  rcases Nat.lt_or_eq_of_le hle with hlt | rfl
  · simp [hlt, Nat.ne_of_lt hlt]
  · simp [hpos]

/-- **The signal is armed while it is held and somebody listens.** -/
theorem isArmed_after_iff (hp : Possible h) : (after h).isArmed = true ↔
    0 < armings h ∧ ¬ TriggeredIn (armings h) h ∧ Kept (armings h) h := by
  rw [isArmed, Bool.and_eq_true, held_after, bne_iff_ne]
  constructor
  · rintro ⟨⟨hpos, hnot⟩, hreceivers⟩
    have hcount := receivers_after hp hpos
    exact ⟨hpos, hnot, hpos, Nat.le_refl _, by omega⟩
  · rintro ⟨hpos, hnot, -, -, hkept⟩
    have hcount := receivers_after hp hpos
    exact ⟨⟨hpos, hnot⟩, by omega⟩

end StopSignal

/-! ### The channels behind a signal -/

/-- The channel of an arming: a flag, the one sender that can set it, and its receivers. -/
structure Channel where
  /-- Whether the flag is set. -/
  isSet : Bool := false
  /-- Whether the sender is still there. -/
  hasSender : Bool := true
  /-- How many receivers there are. -/
  receivers : Nat := 1

namespace Channel

/-- The sender sets the flag. It does not if nobody receives. -/
def send (c : Channel) : Channel := if c.receivers = 0 then c else { c with isSet := true }

/-- The sender is dropped. -/
def dropSender (c : Channel) : Channel := { c with hasSender := false }

/-- Whether receivers that wait for the flag are told: when it is set, and also when there is
nobody left to set it. -/
def tells (c : Channel) : Bool := c.isSet || !c.hasSender

/-- Whether nobody receives. -/
def isClosed (c : Channel) : Bool := c.receivers == 0

theorem tells_dropSender (c : Channel) : c.dropSender.tells = true := Bool.or_true _

theorem receivers_send (c : Channel) : c.send.receivers = c.receivers := by
  unfold send
  split <;> rfl

end Channel

/-- A stop signal as it is wired. -/
structure Switchboard where
  /-- The channels of all armings, in their order. -/
  channels : List Channel := []
  /-- The arming whose sender the signal keeps. -/
  sender : Option Nat := none

namespace Switchboard

open StopSignal (Action)

/-- The channel of an arming changes. -/
def change (b : Switchboard) (arming : Nat) (f : Channel → Channel) : Switchboard :=
  { b with channels := b.channels.modify (arming - 1) f }

/-- The signal parts with its sender, if it keeps one. -/
def release (b : Switchboard) (f : Channel → Channel) : Switchboard :=
  match b.sender with
  | some arming => { b.change arming f with sender := none }
  | none => b

/-- A new channel, whose sender the signal keeps. -/
def connect (b : Switchboard) : Switchboard :=
  ⟨b.channels ++ [({} : Channel)], some (b.channels.length + 1)⟩

/-- A signal after something was done to it. To arm it drops the sender of the arming before, to
trigger it drops the sender after it was used. -/
def act (b : Switchboard) : Action → Switchboard
  | .arm => (b.release .dropSender).connect
  | .trigger => b.release fun c => c.send.dropSender
  | .share arming => b.change arming fun c => { c with receivers := c.receivers + 1 }
  | .drop arming => b.change arming fun c => { c with receivers := c.receivers - 1 }

/-- A new signal after a history. -/
def after (h : List Action) : Switchboard := h.foldl act {}

/-- The channel of an arming. -/
def channel? (b : Switchboard) (arming : Nat) : Option Channel := b.channels[arming - 1]?

/-- Whether the receivers of an arming are told. -/
def hasStopped (b : Switchboard) (arming : Nat) : Bool := (b.channel? arming).any (·.tells)

/-- Whether the signal keeps a sender that somebody receives from. -/
def isArmed (b : Switchboard) : Bool := (b.sender.bind b.channel?).any fun c => !c.isClosed

/-- What a signal shows of its channels. -/
structure Shows (b : Switchboard) (s : StopSignal) : Prop where
  /-- There is one for each arming. -/
  arms : b.channels.length = s.arms
  /-- While the signal is held it keeps the sender of the last arming. -/
  sender : b.sender = if s.held then some s.arms else none
  /-- It is held only after an arming. -/
  armed : s.held = true → 0 < s.arms
  /-- The receivers of each arming are told when the signal went off for them. -/
  told : ∀ i c, b.channels[i]? = some c → c.tells = s.hasStopped (i + 1)
  /-- The last arming has the receivers that the signal counts. -/
  receivers : ∀ c, b.channels[s.arms - 1]? = some c → c.receivers = s.receivers

variable {b : Switchboard} {s : StopSignal} {f : Channel → Channel} {arming : Nat}

/-- What a channel is after another one changed, or it itself did. -/
theorem exists_of_change {i : Nat} {c' : Channel} (h : (b.change arming f).channels[i]? = some c') :
    ∃ c, b.channels[i]? = some c ∧ c' = if arming - 1 = i then f c else c := by
  rw [change, List.getElem?_modify] at h
  obtain ⟨c, hc, rfl⟩ := Option.map_eq_some_iff.mp h
  exact ⟨c, hc, by split <;> rfl⟩

/-- **The signal shows when its sender is gone.** The channel tells so from then on, and those of
earlier armings told it already. -/
theorem Shows.release (hs : b.Shows s) (htells : ∀ c, (f c).tells = true)
    (hreceivers : ∀ c, (f c).receivers = c.receivers) : (b.release f).Shows s.trigger := by
  have hsender := hs.sender
  unfold Switchboard.release
  by_cases hheld : s.held = true
  · rw [hheld, if_pos rfl] at hsender
    rw [hsender]
    refine ⟨by simpa [change, StopSignal.trigger] using hs.arms, rfl, nofun,
      fun i c' hc' => ?_, fun c' hc' => ?_⟩
    · obtain ⟨c, hc, rfl⟩ := exists_of_change hc'
      rw [StopSignal.hasStopped_trigger]
      split
      next => exact htells c
      next hi =>
        have hne : i + 1 ≠ s.arms := by omega
        simp [hs.told i c hc, StopSignal.hasStopped, hne]
    · obtain ⟨c, hc, rfl⟩ := exists_of_change hc'
      have hcount := hs.receivers c hc
      split
      next => exact (hreceivers c).trans hcount
      next => exact hcount
  · rw [Bool.not_eq_true] at hheld
    rw [hheld, if_neg Bool.false_ne_true] at hsender
    rw [hsender]
    have hsame : s.trigger = s := by simp [StopSignal.trigger, ← hheld]
    rw [hsame]
    exact hs

/-- **The signal shows a new channel**, for which nothing was sent and which has one receiver. -/
theorem Shows.connect (hs : b.Shows s) (hheld : s.held = false) : b.connect.Shows s.arm := by
  refine ⟨by simp [Switchboard.connect, StopSignal.arm, hs.arms],
    by simp [Switchboard.connect, StopSignal.arm, hs.arms], fun _ => Nat.succ_pos _,
    fun i c hc => ?_, fun c hc => ?_⟩
  · rw [Switchboard.connect] at hc
    by_cases hi : i < b.channels.length
    · rw [List.getElem?_append_left hi] at hc
      rw [hs.told i c hc, StopSignal.hasStopped_arm (by rw [← hs.arms]; exact hi)]
      simp [StopSignal.hasStopped, hheld]
    · rw [List.getElem?_append_right (by omega)] at hc
      obtain ⟨hzero, rfl⟩ : i - b.channels.length = 0 ∧ c = {} := by
        simpa [List.getElem?_singleton, eq_comm] using hc
      obtain rfl : i = s.arms := by rw [← hs.arms]; omega
      simp [Channel.tells, StopSignal.hasStopped, StopSignal.arm]
  · rw [Switchboard.connect, StopSignal.arm, Nat.add_sub_cancel, ← hs.arms] at hc
    obtain rfl : {} = c := by simpa using hc
    rfl

/-- **The signal shows how many receivers its last arming has.** Those of earlier armings it need
not count, since nobody can hear of their sender. -/
theorem Shows.recount (hs : b.Shows s) (hpos : 0 < arming) (g : Nat → Nat) :
    (b.change arming fun c => { c with receivers := g c.receivers }).Shows
      (if arming = s.arms then { s with receivers := g s.receivers } else s) := by
  generalize ht : (if arming = s.arms then { s with receivers := g s.receivers } else s) = t
  have harms : t.arms = s.arms := by subst ht; split <;> rfl
  have hheld : t.held = s.held := by subst ht; split <;> rfl
  have hcount : t.receivers = if arming = s.arms then g s.receivers else s.receivers := by
    subst ht
    split <;> rfl
  refine ⟨by simpa [change, harms] using hs.arms, by rw [hheld, harms]; exact hs.sender,
    by rw [hheld, harms]; exact hs.armed, fun i c' hc' => ?_, fun c' hc' => ?_⟩
  · obtain ⟨c, hc, rfl⟩ := exists_of_change hc'
    rw [StopSignal.hasStopped, harms, hheld, ← StopSignal.hasStopped, ← hs.told i c hc]
    split <;> rfl
  · rw [harms] at hc'
    obtain ⟨c, hc, rfl⟩ := exists_of_change hc'
    obtain ⟨hlt, -⟩ := List.getElem?_eq_some_iff.mp hc
    rw [hs.arms] at hlt
    have hlast : arming - 1 = s.arms - 1 ↔ arming = s.arms := by omega
    rw [hcount, ← hs.receivers c hc]
    simp only [hlast]
    split <;> rfl

/-- **Whatever is done, the signal goes on showing its channels.** -/
theorem shows_after {h : List Action} (hp : StopSignal.Possible h) :
    (after h).Shows (StopSignal.after h) := by
  have hlast (h : List Action) (a : Action) : after (h ++ [a]) = (after h).act a := by simp [after]
  induction hp with
  | nil => exact ⟨rfl, rfl, nofun, nofun, nofun⟩
  | arm _ ih =>
    rw [hlast, StopSignal.after_concat]
    exact (ih.release Channel.tells_dropSender fun _ => rfl).connect rfl
  | trigger _ ih =>
    rw [hlast, StopSignal.after_concat]
    exact ih.release (fun c => c.send.tells_dropSender) Channel.receivers_send
  | share _ kept ih =>
    rw [hlast, StopSignal.after_concat]
    exact ih.recount kept.1 (· + 1)
  | drop _ kept ih =>
    rw [hlast, StopSignal.after_concat]
    exact ih.recount kept.1 (· - 1)

/-- The receivers of an arming are told when the signal went off for them. -/
theorem Shows.hasStopped_eq (hs : b.Shows s) (hpos : 0 < arming) (hle : arming ≤ s.arms) :
    b.hasStopped arming = s.hasStopped arming := by
  have hlt : arming - 1 < b.channels.length := by
    have := hs.arms
    omega
  have htold := hs.told _ _ (List.getElem?_eq_getElem hlt)
  rw [Nat.sub_add_cancel hpos] at htold
  rw [hasStopped, channel?, List.getElem?_eq_getElem hlt]
  exact htold

/-- A sender is kept that somebody receives from while the signal is armed. -/
theorem Shows.isArmed_eq (hs : b.Shows s) : b.isArmed = s.isArmed := by
  rw [isArmed, StopSignal.isArmed, hs.sender]
  by_cases hheld : s.held = true
  · have hlt : s.arms - 1 < b.channels.length := by
      have := hs.armed hheld
      have := hs.arms
      omega
    have hcount := hs.receivers _ (List.getElem?_eq_getElem hlt)
    simp only [hheld, if_true, Option.bind_some, channel?, List.getElem?_eq_getElem hlt,
      Option.any_some, Channel.isClosed, hcount, Bool.true_and]
    rfl
  · simp [hheld]

end Switchboard

namespace StopSignal

/-! ### Receivers and armings -/

/-- **What becomes of one arming does not leak into another.**

* The signal goes off for the receivers of an arming exactly if it is triggered after that arming
  and before the next, or the next takes place; what is done before that arming, and what the
  others do with their receivers, makes no difference.
* It counts as armed exactly if it was armed at all, was not triggered since, and somebody still
  listens to the last arming.
* Both are what the channels of the armings tell, whose receivers hear of a flag that was set and
  of a sender that is gone. -/
theorem armings_apart {h : List Action} (hp : Possible h) :
    (∀ arming, 0 < arming → arming ≤ armings h →
      ((after h).hasStopped arming = true ↔ TriggeredIn arming h ∨ arming < armings h) ∧
        (Switchboard.after h).hasStopped arming = (after h).hasStopped arming) ∧
    ((after h).isArmed = true ↔
      0 < armings h ∧ ¬ TriggeredIn (armings h) h ∧ Kept (armings h) h) ∧
    (Switchboard.after h).isArmed = (after h).isArmed := by
  have hshows := Switchboard.shows_after hp
  refine ⟨fun arming hpos hle => ⟨hasStopped_after_iff hpos hle, ?_⟩, isArmed_after_iff hp,
    hshows.isArmed_eq⟩
  exact hshows.hasStopped_eq hpos (by rwa [arms_after])

/-- Two armings, of which the first was triggered. The first receiver of the second is gone, its
clone is not. -/
def rearmed : List Action := [.arm, .trigger, .arm, .share 2, .drop 2]

/-- The signal went off for the first arming; for the second it did not, and it is armed. -/
theorem armings_apart_of_rearmed :
    Possible rearmed ∧ (after rearmed).hasStopped 1 = true ∧ TriggeredIn 1 rearmed ∧
      (after rearmed).hasStopped 2 = false ∧ (after rearmed).isArmed = true ∧
      ¬ TriggeredIn 2 rearmed ∧ Kept 2 rearmed := by
  have hnew : Kept 2 [.arm, .trigger, .arm] := by decide
  have hcloned : Kept 2 [.arm, .trigger, .arm, .share 2] := by decide
  have hp : Possible rearmed := (Possible.nil.arm.trigger.arm.share hnew).drop hcloned
  have harmed : (after rearmed).isArmed = true := by decide
  have htriggered : TriggeredIn 1 rearmed := ⟨[.arm], [.arm, .share 2, .drop 2], rfl, rfl⟩
  obtain ⟨htold, hisArmed, -⟩ := armings_apart hp
  obtain ⟨-, hnot, hkept⟩ := hisArmed.mp harmed
  have hfirst : (after rearmed).hasStopped 1 = true :=
    (htold 1 (by decide) (by decide)).1.mpr (.inl htriggered)
  have hsecond : (after rearmed).hasStopped 2 = false := by
    rw [← Bool.not_eq_true, (htold 2 (by decide) (by decide)).1]
    exact fun h => h.elim hnot (by decide)
  exact ⟨hp, hfirst, htriggered, hsecond, harmed, hnot, hkept⟩

end StopSignal

end ExecutionNode.Sync
