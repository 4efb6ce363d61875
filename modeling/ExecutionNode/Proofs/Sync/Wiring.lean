import ExecutionNode.Proofs.Sync.Downloads

/-!
# Who listens to which stop signal

Stopping a synchronizer works through stop signals, and so does telling whether a download is
under way.  What matters for them is little: which run listens to which arming of which signal,
how the signals stand, and whether a run is active.  `Wiring` is this view of a synchronizer.

`Wiring.Sound` is the invariant.  The current run is the only one that listens to the latest arming
of a signal that is held, and it listens to the newest downloader; for every other run the signal
went off already; and no signal is armed unless the current run listens to it.  What happens to a
wiring is one of six things, and each of them keeps it sound: a run leaves (`Sound.leave`) or
begins full sync (`Sound.join`), the active run is over (`Sound.halt`), the synchronizer is
stopped (`Sound.stop`), started (`Sound.begin`) or gets a new downloader (`Sound.renew`).

From this it follows that nothing is armed while no run is active (`Sound.isArmed_eq_false`) and
that no two signals are armed at a time (`Sound.armed_unique`).
-/

namespace ExecutionNode.Sync

namespace StopSignal

variable {σ : StopSignal} {arming : Nat}

/-- To arm a signal is to let it go off for all who listened before. -/
theorem hasStopped_arm (h : arming ≤ σ.arms) : σ.arm.hasStopped arming = true := by
  have hne : arming ≠ σ.arms + 1 := by omega
  simp [hasStopped, arm, hne]

/-- A triggered signal went off. -/
theorem hasStopped_trigger (σ : StopSignal) (arming : Nat) :
    σ.trigger.hasStopped arming = true := by
  simp [hasStopped, trigger]

/-- For those who stay nothing changes when a receiver goes. -/
theorem hasStopped_drop (σ : StopSignal) (arming other : Nat) :
    (σ.drop arming).hasStopped other = σ.hasStopped other := by
  unfold drop
  split <;> rfl

/-- A signal is as often armed when a receiver goes. -/
theorem arms_drop (σ : StopSignal) (arming : Nat) : (σ.drop arming).arms = σ.arms := by
  unfold drop
  split <;> rfl

/-- A signal that is armed after a receiver went was armed before. -/
theorem isArmed_of_drop (h : (σ.drop arming).isArmed = true) : σ.isArmed = true := by
  unfold drop at h
  split at h
  · simp only [isArmed, Bool.and_eq_true, bne_iff_ne] at h ⊢
    exact ⟨h.1, by omega⟩
  · exact h

/-- A signal that lost its only receiver is not armed. -/
theorem isArmed_drop_only (arming : Nat) :
    ((⟨arming, true, 1⟩ : StopSignal).drop arming).isArmed = false := by
  simp [drop, isArmed]

/-- A triggered signal is not armed. -/
theorem isArmed_trigger (σ : StopSignal) : σ.trigger.isArmed = false := by
  simp [trigger, isArmed]

/-- The signal did not go off for the only receiver of its last arming. -/
theorem hasStopped_only (arming : Nat) :
    (⟨arming, true, 1⟩ : StopSignal).hasStopped arming = false := by
  simp [hasStopped]

end StopSignal

/-- What can be stopped by a signal. -/
inductive Source where
  /-- The downloader of a number, for catching up. -/
  | catchUp (downloader : Nat)
  /-- Full sync. -/
  | fullSync
deriving DecidableEq

/-- What a run listens to: the signal of what it waits for, at an arming. -/
def Run.listens? : Run → Option (Source × Nat)
  | .catchingUp downloader arming _ => some (.catchUp downloader, arming)
  | .following arming _ => some (.fullSync, arming)
  | _ => none

/-- Who listens to which stop signal. -/
structure Wiring where
  /-- Whether a run is active. -/
  running : Bool
  /-- What each run listens to. -/
  listens : List (Option (Source × Nat))
  /-- The signals of the downloaders for catching up. -/
  catchUps : List StopSignal
  /-- The signal of full sync. -/
  fullSync : Option StopSignal

namespace Wiring

/-- The signal of a source. -/
def signal? (w : Wiring) : Source → Option StopSignal
  | .catchUp downloader => w.catchUps[downloader]?
  | .fullSync => w.fullSync

/-- Whether a run is active and the latest. -/
def IsCurrent (w : Wiring) (run : Nat) : Prop := w.running = true ∧ run + 1 = w.listens.length

/-- Whether a source is as good as the newest: full sync, or the newest downloader. -/
def IsNewest (w : Wiring) : Source → Prop
  | .catchUp downloader => downloader + 1 = w.catchUps.length
  | .fullSync => True

/-- A run listens to an arming of a source. -/
def Listens (w : Wiring) (run : Nat) (src : Source) (arming : Nat) : Prop :=
  w.listens[run]? = some (some (src, arming))

/-- A run does not listen to anything. -/
def Silent (w : Wiring) (run : Nat) : Prop := ∀ src arming, ¬ w.Listens run src arming

/-- An arming of a source took place. -/
def Heard (w : Wiring) (src : Source) (arming : Nat) : Prop :=
  ∃ σ, w.signal? src = some σ ∧ arming ≤ σ.arms

/-- The invariant of the wiring. -/
structure Sound (w : Wiring) : Prop where
  /-- A run listens to an arming that took place. -/
  heard : ∀ {run : Nat} {src : Source} {arming : Nat}, w.Listens run src arming →
    w.Heard src arming
  /-- The current run alone listens to the latest arming of a signal that is held. -/
  current : ∀ {run : Nat} {src : Source} {arming : Nat}, w.Listens run src arming →
    w.IsCurrent run → w.signal? src = some ⟨arming, true, 1⟩ ∧ w.IsNewest src
  /-- For every other run the signal went off. -/
  stale : ∀ {run : Nat} {src : Source} {arming : Nat} {σ : StopSignal},
    w.Listens run src arming → ¬ w.IsCurrent run → w.signal? src = some σ →
    σ.hasStopped arming = true
  /-- No signal is armed unless the current run listens to it. -/
  armed : ∀ {src : Source} {σ : StopSignal}, w.signal? src = some σ → σ.isArmed = true →
    ∃ run arming, w.IsCurrent run ∧ w.Listens run src arming

variable {w : Wiring} {run : Nat} {src : Source} {arming : Nat}

/-- There is one current run. -/
theorem IsCurrent.unique {other : Nat} (h : w.IsCurrent run) (h' : w.IsCurrent other) :
    run = other :=
  Nat.succ.inj (h.2.trans h'.2.symm)

/-- A run listens to one thing. -/
theorem Listens.unique {src' : Source} {arming' : Nat} (h : w.Listens run src arming)
    (h' : w.Listens run src' arming') : src = src' ∧ arming = arming' := by
  unfold Listens at h h'
  rw [h] at h'
  exact Prod.mk.inj (Option.some.inj (Option.some.inj h'))

/-- **Nothing is armed while no run is active.** -/
theorem Sound.isArmed_eq_false (h : w.Sound) (hrunning : w.running = false) {σ : StopSignal}
    (hσ : w.signal? src = some σ) : σ.isArmed = false := by
  cases harmed : σ.isArmed with
  | false => rfl
  | true =>
    obtain ⟨run, arming, hcurrent, -⟩ := h.armed hσ harmed
    rw [hcurrent.1] at hrunning
    cases hrunning

/-- **No two signals are armed at a time.** -/
theorem Sound.armed_unique (h : w.Sound) {src' : Source} {σ σ' : StopSignal}
    (hσ : w.signal? src = some σ) (hσ' : w.signal? src' = some σ') (harmed : σ.isArmed = true)
    (harmed' : σ'.isArmed = true) : src = src' := by
  obtain ⟨run, arming, hcurrent, hlistens⟩ := h.armed hσ harmed
  obtain ⟨run', arming', hcurrent', hlistens'⟩ := h.armed hσ' harmed'
  rw [hcurrent.unique hcurrent'] at hlistens
  exact (hlistens.unique hlistens').1

/-- While no run is active, no run is current. -/
theorem not_isCurrent (hrunning : w.running = false) (run : Nat) : ¬ w.IsCurrent run := by
  intro h
  rw [h.1] at hrunning
  cases hrunning

/-! ### What happens to a wiring -/

/-- Something happens to a signal. -/
def mapSignal (w : Wiring) (src : Source) (f : StopSignal → StopSignal) : Wiring :=
  match src with
  | .catchUp downloader => { w with catchUps := w.catchUps.modify downloader f }
  | .fullSync => { w with fullSync := w.fullSync.map f }

@[simp] theorem running_mapSignal (w : Wiring) (src : Source) (f : StopSignal → StopSignal) :
    (w.mapSignal src f).running = w.running := by
  cases src <;> rfl

@[simp] theorem listens_mapSignal (w : Wiring) (src : Source) (f : StopSignal → StopSignal) :
    (w.mapSignal src f).listens = w.listens := by
  cases src <;> rfl

@[simp] theorem length_catchUps_mapSignal (w : Wiring) (src : Source)
    (f : StopSignal → StopSignal) : (w.mapSignal src f).catchUps.length = w.catchUps.length := by
  cases src with
  | catchUp downloader => exact List.length_modify ..
  | fullSync => rfl

/-- What happens to one signal does not happen to another. -/
theorem signal?_mapSignal (w : Wiring) (src src' : Source) (f : StopSignal → StopSignal) :
    (w.mapSignal src f).signal? src' =
      if src' = src then (w.signal? src').map f else w.signal? src' := by
  cases src with
  | catchUp downloader =>
    cases src' with
    | catchUp downloader' =>
      simp only [mapSignal, signal?, List.getElem?_modify, Source.catchUp.injEq]
      by_cases h : downloader' = downloader
      · simp [h]
      · simp [h, Ne.symm h]
    | fullSync => rfl
  | fullSync =>
    cases src' with
    | catchUp downloader' => rfl
    | fullSync => rfl

/-- A signal after something happened to one was a signal before. -/
theorem signal?_of_mapSignal {f : StopSignal → StopSignal} {src' : Source} {σ' : StopSignal}
    (h : (w.mapSignal src f).signal? src' = some σ') :
    ∃ σ, w.signal? src' = some σ ∧ (src' = src ∧ σ' = f σ ∨ src' ≠ src ∧ σ' = σ) := by
  rw [signal?_mapSignal] at h
  split at h
  · next heq =>
    obtain ⟨σ, hσ, rfl⟩ := Option.map_eq_some_iff.mp h
    exact ⟨σ, hσ, .inl ⟨heq, rfl⟩⟩
  · next hne => exact ⟨σ', h, .inr ⟨hne, rfl⟩⟩

/-- What took place has taken place, whatever happens to a signal. -/
theorem Heard.mapSignal {src' : Source} (h : w.Heard src' arming) (src : Source)
    {f : StopSignal → StopSignal} (hf : ∀ σ, σ.arms ≤ (f σ).arms) :
    (w.mapSignal src f).Heard src' arming := by
  obtain ⟨σ, hσ, harms⟩ := h
  unfold Heard
  rw [signal?_mapSignal, hσ]
  split
  · exact ⟨f σ, rfl, Nat.le_trans harms (hf σ)⟩
  · exact ⟨σ, rfl, harms⟩

/-- A source is as new as before, whatever happens to a signal. -/
theorem isNewest_mapSignal {f : StopSignal → StopSignal} {src' : Source} :
    (w.mapSignal src f).IsNewest src' ↔ w.IsNewest src' := by
  cases src' with
  | catchUp downloader => simp [IsNewest]
  | fullSync => exact Iff.rfl

/-- A run no longer listens to anything. -/
def silence (w : Wiring) (run : Nat) : Wiring := { w with listens := w.listens.set run none }

/-- A run goes from what it listens to. -/
def leave (w : Wiring) (run : Nat) (src : Source) (arming : Nat) : Wiring :=
  (w.mapSignal src (·.drop arming)).silence run

/-- A run begins to listen to full sync, which is armed for it. -/
def join (w : Wiring) (run : Nat) (σ : StopSignal) : Wiring :=
  { w with
    fullSync := some σ.arm
    listens := w.listens.set run (some (.fullSync, σ.arm.arms)) }

/-- The active run is over. -/
def halt (w : Wiring) : Wiring := { w with running := false }

/-- The newest downloader for catching up, as a source. -/
def newest (w : Wiring) : Source := .catchUp (w.catchUps.length - 1)

/-- The active run is stopped. -/
def stop (w : Wiring) : Wiring :=
  { (w.mapSignal w.newest .trigger).mapSignal .fullSync .trigger with running := false }

/-- A run begins, and the newest downloader is armed for it. -/
def begin (w : Wiring) : Wiring :=
  { w.mapSignal w.newest .arm with
    running := true
    listens := w.listens ++ [w.catchUps.getLast?.map fun σ => (w.newest, σ.arm.arms)] }

/-- There is a new downloader for catching up, if there was any. -/
def renew (w : Wiring) : Wiring :=
  { w with catchUps := w.catchUps ++ (w.catchUps.getLast?.map fun _ => {}).toList }

/-- A silenced run is silent. -/
theorem silent_silence (w : Wiring) (run : Nat) : (w.silence run).Silent run := by
  intro src arming h
  unfold Listens silence at h
  rw [List.getElem?_set] at h
  split at h
  · split at h <;> cases h
  · next hne => exact hne rfl

/-- Who is current stays so when a run is silenced. -/
theorem isCurrent_silence {other : Nat} : (w.silence run).IsCurrent other ↔ w.IsCurrent other := by
  unfold IsCurrent silence
  rw [List.length_set]

/-- Once a run has changed what it listens to, the others listen to the same. -/
theorem listens_set {new : Option (Source × Nat)} {w' : Wiring} {other : Nat}
    (h : w'.listens = w.listens.set run new) (hother : w'.Listens other src arming) :
    other = run ∧ new = some (src, arming) ∨ other ≠ run ∧ w.Listens other src arming := by
  unfold Listens at hother ⊢
  rw [h, List.getElem?_set] at hother
  split at hother
  · next heq =>
    split at hother
    · exact .inl ⟨heq.symm, Option.some.inj hother⟩
    · cases hother
  · next hne => exact .inr ⟨Ne.symm hne, hother⟩

/-- What one run listens to does not matter for what another listens to. -/
theorem Listens.set {new : Option (Source × Nat)} {w' : Wiring} {other : Nat}
    (hother : w.Listens other src arming) (h : w'.listens = w.listens.set run new)
    (hne : other ≠ run) : w'.Listens other src arming := by
  unfold Listens at hother ⊢
  rw [h, List.getElem?_set_ne (Ne.symm hne)]
  exact hother

/-- What a run listens to does not matter for who is current. -/
theorem isCurrent_of_set {new : Option (Source × Nat)} {w' : Wiring} {other : Nat}
    (h : w'.listens = w.listens.set run new) (hrunning : w'.running = w.running) :
    w'.IsCurrent other ↔ w.IsCurrent other := by
  unfold IsCurrent
  rw [h, hrunning, List.length_set]

/-! ### The invariant is kept -/

/-- When a run goes from a source, the others listen to the same. -/
theorem listens_leave (w : Wiring) (run : Nat) (src : Source) (arming : Nat) :
    (w.leave run src arming).listens = w.listens.set run none := by
  rw [Wiring.leave, silence, listens_mapSignal]

/-- When a run goes from a source, its signal loses a receiver. -/
theorem signal?_leave (w : Wiring) (run : Nat) (src src' : Source) (arming : Nat) :
    (w.leave run src arming).signal? src' = (w.mapSignal src (·.drop arming)).signal? src' := by
  cases src' <;> rfl

/-- A run may go from what it listens to. -/
theorem Sound.leave (h : w.Sound) (hrun : w.Listens run src arming) :
    (w.leave run src arming).Sound := by
  have hset := w.listens_leave run src arming
  have hsignal := fun src' => w.signal?_leave run src src' arming
  have hcurrent : ∀ other, (w.leave run src arming).IsCurrent other ↔ w.IsCurrent other :=
    fun other => isCurrent_of_set hset (running_mapSignal ..)
  have hother : ∀ {other src' arming'}, (w.leave run src arming).Listens other src' arming' →
      other ≠ run ∧ w.Listens other src' arming' := by
    intro other src' arming' hlistens
    rcases listens_set hset hlistens with ⟨-, hnone⟩ | hkept
    · cases hnone
    · exact hkept
  refine ⟨?_, ?_, ?_, ?_⟩
  · intro other src' arming' hl
    obtain ⟨σ, hσ, harms⟩ := (h.heard (hother hl).2).mapSignal src
      fun σ => Nat.le_of_eq (σ.arms_drop arming).symm
    exact ⟨σ, (hsignal _).trans hσ, harms⟩
  · intro other src' arming' hl hc
    -- the signal went off for the run that goes, so that its drop is none of the current one
    obtain ⟨hne, hl⟩ := hother hl
    rw [hcurrent] at hc
    obtain ⟨hσ, hnewest⟩ := h.current hl hc
    have hstale : ¬ w.IsCurrent run := fun hrc => hne (hc.unique hrc)
    refine ⟨?_, isNewest_mapSignal.mpr hnewest⟩
    rw [hsignal, signal?_mapSignal, hσ]
    split
    · next heq =>
      rw [heq] at hσ
      have hstopped := h.stale hrun hstale hσ
      simp only [StopSignal.hasStopped, Bool.not_true, Bool.or_false, bne_iff_ne] at hstopped
      simp [StopSignal.drop, hstopped]
    · rfl
  · intro other src' arming' σ' hl hc hσ'
    obtain ⟨hne, hl⟩ := hother hl
    rw [hcurrent] at hc
    rw [hsignal] at hσ'
    obtain ⟨σ, hσ, ⟨-, rfl⟩ | ⟨-, rfl⟩⟩ := signal?_of_mapSignal hσ'
    · rw [StopSignal.hasStopped_drop]
      exact h.stale hl hc hσ
    · exact h.stale hl hc hσ
  · intro src' σ' hσ' harmed
    rw [hsignal] at hσ'
    obtain ⟨σ, hσ, hcases⟩ := signal?_of_mapSignal hσ'
    have hbefore : σ.isArmed = true := by
      rcases hcases with ⟨-, rfl⟩ | ⟨-, rfl⟩
      · exact StopSignal.isArmed_of_drop harmed
      · exact harmed
    obtain ⟨other, arming', hc, hl⟩ := h.armed hσ hbefore
    by_cases hne : other = run
    · -- the only receiver is gone
      subst hne
      obtain ⟨rfl, rfl⟩ := hl.unique hrun
      rcases hcases with ⟨-, rfl⟩ | ⟨hsrc, -⟩
      · rw [(h.current hl hc).1] at hσ
        obtain rfl := Option.some.inj hσ
        rw [StopSignal.isArmed_drop_only] at harmed
        cases harmed
      · exact absurd rfl hsrc
    · exact ⟨other, arming', (hcurrent other).mpr hc, hl.set hset hne⟩

/-- The current run may begin full sync once it listens to nothing else. -/
theorem Sound.join (h : w.Sound) (hrun : w.IsCurrent run) (hsilent : w.Silent run) {σ : StopSignal}
    (hσ : w.fullSync = some σ) : (w.join run σ).Sound := by
  have hset : (w.join run σ).listens = w.listens.set run (some (.fullSync, σ.arm.arms)) := rfl
  have hcurrent : ∀ other, (w.join run σ).IsCurrent other ↔ w.IsCurrent other :=
    fun other => isCurrent_of_set hset rfl
  -- every arming of full sync so far is an earlier one
  have hearlier : ∀ {other arming'}, w.Listens other .fullSync arming' → arming' ≤ σ.arms := by
    intro other arming' hl
    obtain ⟨σ', hσ', harms⟩ := h.heard hl
    rw [show σ' = σ from Option.some.inj (hσ'.symm.trans hσ)] at harms
    exact harms
  refine ⟨?_, ?_, ?_, ?_⟩
  · intro other src' arming' hl
    rcases listens_set hset hl with ⟨rfl, hnew⟩ | ⟨hne, hl⟩
    · cases hnew
      exact ⟨σ.arm, rfl, Nat.le_refl _⟩
    · cases src' with
      | catchUp downloader => exact h.heard hl
      | fullSync => exact ⟨σ.arm, rfl, Nat.le_succ_of_le (hearlier hl)⟩
  · intro other src' arming' hl hc
    rcases listens_set hset hl with ⟨rfl, hnew⟩ | ⟨hne, hl⟩
    · cases hnew
      exact ⟨rfl, trivial⟩
    · exact absurd (((hcurrent _).mp hc).unique hrun) hne
  · intro other src' arming' σ' hl hc hσ'
    rw [hcurrent] at hc
    rcases listens_set hset hl with ⟨rfl, hnew⟩ | ⟨hne, hl⟩
    · exact absurd hrun hc
    · cases src' with
      | catchUp downloader => exact h.stale hl hc hσ'
      | fullSync =>
        obtain rfl := Option.some.inj hσ'
        exact StopSignal.hasStopped_arm (hearlier hl)
  · intro src' σ' hσ' harmed
    cases src' with
    | catchUp downloader =>
      have hσ₀ : w.signal? (.catchUp downloader) = some σ' := hσ'
      obtain ⟨other, arming', hc, hl⟩ := h.armed hσ₀ harmed
      rw [hc.unique hrun] at hl
      exact absurd hl (hsilent _ _)
    | fullSync =>
      refine ⟨run, σ.arm.arms, (hcurrent run).mpr hrun, ?_⟩
      unfold Listens
      rw [hset, List.getElem?_set_self (by have := hrun.2; omega)]

/-- The latest run may be over once it listens to nothing. -/
theorem Sound.halt (h : w.Sound) (hrun : run + 1 = w.listens.length) (hsilent : w.Silent run) :
    w.halt.Sound := by
  have hother : ∀ {other src' arming'}, w.Listens other src' arming' → ¬ w.IsCurrent other := by
    intro other src' arming' hl hc
    have heq : other = run := Nat.succ.inj (hc.2.trans hrun.symm)
    rw [heq] at hl
    exact hsilent _ _ hl
  refine ⟨fun hl => h.heard hl, fun hl hc => absurd hc (not_isCurrent rfl _),
    fun hl _ hσ => h.stale hl (hother hl) hσ, fun hσ harmed => ?_⟩
  obtain ⟨other, arming', hc, hl⟩ := h.armed hσ harmed
  exact absurd hc (hother hl)

/-- The newest downloader is as new as it gets. -/
theorem eq_newest (h : w.IsNewest src) : src = w.newest ∨ src = .fullSync := by
  cases src with
  | catchUp downloader =>
    left
    unfold IsNewest at h
    unfold newest
    rw [← h, Nat.add_sub_cancel]
  | fullSync => exact .inr rfl

/-- To stop triggers two signals. -/
theorem signal?_stop (w : Wiring) (src : Source) :
    w.stop.signal? src =
      ((w.mapSignal w.newest .trigger).mapSignal .fullSync .trigger).signal? src := by
  cases src <;> rfl

/-- A signal of a stopped wiring was triggered, or it is as before and not one of the newest. -/
theorem signal?_of_stop {σ' : StopSignal} (h : w.stop.signal? src = some σ') :
    ∃ σ, w.signal? src = some σ ∧ (σ' = σ.trigger ∨ σ' = σ ∧ ¬ w.IsNewest src) := by
  rw [signal?_stop] at h
  obtain ⟨σ₁, hσ₁, hfull⟩ := signal?_of_mapSignal h
  obtain ⟨σ, hσ, hnewest⟩ := signal?_of_mapSignal hσ₁
  refine ⟨σ, hσ, ?_⟩
  rcases hfull with ⟨-, rfl⟩ | ⟨hsrc, rfl⟩
  · rcases hnewest with ⟨-, rfl⟩ | ⟨-, rfl⟩
    · exact .inl rfl
    · exact .inl rfl
  · rcases hnewest with ⟨-, rfl⟩ | ⟨hsrc', rfl⟩
    · exact .inl rfl
    · exact .inr ⟨rfl, fun hn => (eq_newest hn).elim hsrc' hsrc⟩

/-- Who listens after a stop listened before. -/
theorem listens_of_stop (h : w.stop.Listens run src arming) : w.Listens run src arming := by
  unfold Wiring.stop Listens at h
  rw [listens_mapSignal, listens_mapSignal] at h
  exact h

/-- The synchronizer may be stopped: whatever the current run listens to goes off. -/
theorem Sound.stop (h : w.Sound) : w.stop.Sound := by
  refine ⟨?_, fun hl hc => absurd hc (not_isCurrent rfl _), ?_, ?_⟩
  · intro other src' arming' hl
    obtain ⟨σ, hσ, harms⟩ := ((h.heard (listens_of_stop hl)).mapSignal w.newest
      fun σ => Nat.le_refl σ.trigger.arms).mapSignal .fullSync fun σ => Nat.le_refl σ.trigger.arms
    exact ⟨σ, (w.signal?_stop _).trans hσ, harms⟩
  · intro other src' arming' σ' hl hc hσ'
    obtain ⟨σ, hσ, rfl | ⟨rfl, hold⟩⟩ := signal?_of_stop hσ'
    · exact σ.hasStopped_trigger arming'
    · have hstale : ¬ w.IsCurrent other := fun hc => hold (h.current (listens_of_stop hl) hc).2
      exact h.stale (listens_of_stop hl) hstale hσ
  · intro src' σ' hσ' harmed
    obtain ⟨σ, hσ, rfl | ⟨rfl, hold⟩⟩ := signal?_of_stop hσ'
    · rw [σ.isArmed_trigger] at harmed
      cases harmed
    · obtain ⟨other, arming', hc, hl⟩ := h.armed hσ harmed
      exact absurd (h.current hl hc).2 hold

/-- Who listens once a run began. -/
theorem listens_begin {other : Nat} (h : w.begin.Listens other src arming) :
    w.Listens other src arming ∨
      other = w.listens.length ∧ ∃ σ, w.catchUps.getLast? = some σ ∧ src = w.newest ∧
        arming = σ.arm.arms := by
  unfold Listens Wiring.begin at h
  rw [List.getElem?_append] at h
  split at h
  · exact .inl h
  · next hge =>
    right
    obtain ⟨heq, hlast⟩ := List.getElem?_eq_some_iff.mp h
    have hlen : other = w.listens.length := by
      simp at heq
      omega
    subst hlen
    simp at hlast
    obtain ⟨σ, hσ, rfl, rfl⟩ := hlast
    exact ⟨rfl, σ, hσ, rfl, rfl⟩

/-- The newest downloader has the last of the signals. -/
theorem signal?_newest (w : Wiring) : w.signal? w.newest = w.catchUps.getLast? := by
  rw [List.getLast?_eq_getElem?]
  rfl

/-- A run may begin while none is active: whoever listened before is told off. -/
theorem Sound.begin (h : w.Sound) (hrunning : w.running = false) : w.begin.Sound := by
  have hsignal : ∀ src', w.begin.signal? src' = (w.mapSignal w.newest .arm).signal? src' := by
    intro src'
    cases src' <;> rfl
  have hlength : w.begin.listens.length = w.listens.length + 1 := by
    simp [Wiring.begin]
  have hold : ∀ {other src' arming'}, w.Listens other src' arming' → ¬ w.begin.IsCurrent other := by
    intro other src' arming' hl hc
    have hlt : other < w.listens.length := (List.getElem?_eq_some_iff.mp hl).1
    have heq := hc.2
    rw [hlength] at heq
    omega
  have hnew : ∀ {σ}, w.catchUps.getLast? = some σ → w.begin.signal? w.newest = some σ.arm := by
    intro σ hσ
    rw [hsignal, signal?_mapSignal, if_pos rfl, signal?_newest, hσ, Option.map_some]
  refine ⟨?_, ?_, ?_, ?_⟩
  · intro other src' arming' hl
    rcases listens_begin hl with hl | ⟨-, σ, hσ, rfl, rfl⟩
    · obtain ⟨σ, hσ, harms⟩ := (h.heard hl).mapSignal w.newest
        fun σ => show σ.arms ≤ σ.arm.arms from Nat.le_succ σ.arms
      exact ⟨σ, (hsignal _).trans hσ, harms⟩
    · exact ⟨σ.arm, hnew hσ, Nat.le_refl _⟩
  · intro other src' arming' hl hc
    rcases listens_begin hl with hl | ⟨-, σ, hσ, rfl, rfl⟩
    · exact absurd hc (hold hl)
    · refine ⟨hnew hσ, ?_⟩
      have hne : w.catchUps ≠ [] := by
        rintro hnil
        rw [hnil] at hσ
        cases hσ
      have hpos := List.length_pos_iff.mpr hne
      show w.catchUps.length - 1 + 1 = (w.catchUps.modify _ _).length
      rw [List.length_modify]
      omega
  · intro other src' arming' σ' hl hc hσ'
    rcases listens_begin hl with hl | ⟨rfl, -⟩
    · rw [hsignal] at hσ'
      obtain ⟨σ, hσ, ⟨-, rfl⟩ | ⟨-, rfl⟩⟩ := signal?_of_mapSignal hσ'
      · obtain ⟨σ₀, hσ₀, harms⟩ := h.heard hl
        obtain rfl := Option.some.inj (hσ₀.symm.trans hσ)
        exact StopSignal.hasStopped_arm harms
      · exact h.stale hl (not_isCurrent hrunning other) hσ
    · exact absurd ⟨rfl, hlength.symm⟩ hc
  · intro src' σ' hσ' harmed
    rw [hsignal] at hσ'
    obtain ⟨σ, hσ, ⟨rfl, rfl⟩ | ⟨-, rfl⟩⟩ := signal?_of_mapSignal hσ'
    · rw [signal?_newest] at hσ
      refine ⟨w.listens.length, σ.arm.arms, ⟨rfl, hlength.symm⟩, ?_⟩
      unfold Listens Wiring.begin
      rw [List.getElem?_append_right (Nat.le_refl _), Nat.sub_self, hσ]
      rfl
    · rw [h.isArmed_eq_false hrunning hσ] at harmed
      cases harmed

/-- A new downloader does not change the signals there are. -/
theorem signal?_renew {σ : StopSignal} (h : w.signal? src = some σ) :
    w.renew.signal? src = some σ := by
  cases src with
  | catchUp downloader =>
    have hlt := (List.getElem?_eq_some_iff.mp h).1
    exact (List.getElem?_append_left hlt).trans h
  | fullSync => exact h

/-- The signal of a new downloader is not armed. -/
theorem signal?_of_renew {σ : StopSignal} (h : w.renew.signal? src = some σ) :
    w.signal? src = some σ ∨ σ.isArmed = false := by
  cases src with
  | catchUp downloader =>
    unfold Wiring.renew signal? at h
    dsimp only at h
    rw [List.getElem?_append] at h
    split at h
    · exact .inl h
    · right
      have hmem := List.mem_of_getElem? h
      rw [Option.mem_toList] at hmem
      obtain ⟨-, -, rfl⟩ := Option.map_eq_some_iff.mp hmem
      rfl
  | fullSync => exact .inl h

/-- There may be a new downloader while no run is active. -/
theorem Sound.renew (h : w.Sound) (hrunning : w.running = false) : w.renew.Sound := by
  refine ⟨?_, fun hl hc => absurd hc (not_isCurrent hrunning _), ?_, ?_⟩
  · intro other src' arming' hl
    obtain ⟨σ, hσ, harms⟩ := h.heard hl
    exact ⟨σ, signal?_renew hσ, harms⟩
  · intro other src' arming' σ' hl hc hσ'
    obtain ⟨σ, hσ, -⟩ := h.heard hl
    obtain rfl := Option.some.inj ((signal?_renew hσ).symm.trans hσ')
    exact h.stale hl (not_isCurrent hrunning _) hσ
  · intro src' σ' hσ' harmed
    rcases signal?_of_renew hσ' with hσ | hunarmed
    · rw [h.isArmed_eq_false hrunning hσ] at harmed
      cases harmed
    · rw [hunarmed] at harmed
      cases harmed

end Wiring

end ExecutionNode.Sync
