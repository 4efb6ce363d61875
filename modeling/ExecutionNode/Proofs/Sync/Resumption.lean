import ExecutionNode.Proofs.Sync.Kept

/-!
# Resuming a catch-up

A run that is started takes up the pivot block that is kept, so that a catch-up which was
interrupted goes on where it was.  That holds as long as nobody ever starts over.  Whoever starts
over gets a downloader that leaves the kept pivot block aside, and that downloader stays: a later
run, which is merely started, leaves aside what the run before it kept.

* `Persists.act`: a run that keeps a pivot block keeps to it.
* `kept_after`: that one stays the kept one until the next run begins, unless a run that is not
  current keeps another.
* `interrupted_resumes`: the next run takes up exactly that pivot block and has none chosen, if
  nobody started over before; otherwise it has a new one chosen.
* `restarted_selects_anew`: both exceptions occur.
-/

namespace ExecutionNode.Sync

namespace Synchronizer

variable {s : Synchronizer} {run : Nat} {pivot : SealedHeader}

/-! ### A run that keeps a pivot block -/

/-- A run that catches up has its downloader. -/
theorem exists_catchUp_of_sound (h : s.wiring.Sound) {downloader arming : Nat}
    {stage : CatchUp.Stage} (hrun : s.runs[run]? = some (.catchingUp downloader arming stage)) :
    ∃ c, s.catchUps[downloader]? = some c := by
  obtain ⟨σ, hσ, -⟩ := h.heard (listens_of_catchingUp hrun)
  simp only [Wiring.signal?, wiring, List.getElem?_map, Option.map_eq_some_iff] at hσ
  obtain ⟨c, hc, -⟩ := hσ
  exact ⟨c, hc⟩

/-- The current run catches up with the newest downloader. -/
theorem newest_of_isCurrent (h : s.wiring.Sound) (hcurrent : s.isCurrent run = true)
    {downloader arming : Nat} {stage : CatchUp.Stage}
    (hrun : s.runs[run]? = some (.catchingUp downloader arming stage)) :
    downloader + 1 = s.catchUps.length := by
  obtain ⟨-, hnewest⟩ := h.current (listens_of_catchingUp hrun) (isCurrent_iff.mp hcurrent)
  simpa [Wiring.IsNewest, wiring] using hnewest

/-- A run whose catch-up, after a step, waits only for a pivot block that it has keeps to that. -/
theorem keepsTo_resume {r : Replies} {event : Event} {downloader arming : Nat}
    {stage : CatchUp.Stage} {c : CatchUp}
    (hrun : s.runs[run]? = some (.catchingUp downloader arming stage))
    (hc : s.catchUps[downloader]? = some c)
    (hturn : ∀ stage', (c.resume r s.book arming stage event).turn = .waiting stage' →
      ∃ chainDone stateDone, stage' = .downloading pivot chainDone stateDone) :
    (s.resume r run event).KeepsTo run pivot := by
  have hlt : run < s.runs.length := (List.getElem?_eq_some_iff.mp hrun).1
  have hset : ∀ {t : Synchronizer} {x : Run}, x.KeepsTo pivot → t.runs = s.runs.set run x →
      t.KeepsTo run pivot := by
    intro t x hx hruns
    refine ⟨x, ?_, hx⟩
    rw [hruns, List.getElem?_set_self hlt]
  unfold resume
  rw [hrun]
  dsimp only
  rw [hc]
  dsimp only
  generalize c.resume r s.book arming stage event = o at hturn
  unfold afterCatchUp
  dsimp only
  cases hoturn : o.turn with
  | waiting stage' =>
    obtain ⟨chainDone, stateDone, rfl⟩ := hturn stage' hoturn
    exact hset (x := .catchingUp downloader arming (.downloading pivot chainDone stateDone)) rfl rfl
  | panicked => exact hset (x := .panicked) trivial rfl
  | ended result =>
    dsimp only
    split
    · cases result with
      | ok p =>
        obtain ⟨x, hpast, -, hruns⟩ := runs_handOver _ r run p
        exact hset (hpast.keepsTo pivot) hruns
      | error e => exact hset (x := .ended (.error e)) trivial (runs_finish _ run _)
    · exact hset (x := .ended (.ok ())) trivial (runs_finish _ run _)

/-- A run that ended is not current. -/
theorem isCurrent_finish (s : Synchronizer) (run : Nat) (result : Except RunError Unit) :
    (s.finish run result).isCurrent run = false := by
  unfold finish
  generalize s.setRun run (.ended result) = t
  by_cases hlast : run + 1 = t.runs.length
  · rw [windDown_of_eq hlast]
    rfl
  · rw [windDown_of_ne hlast]
    exact isCurrent_eq_false_iff.mpr fun _ => hlast

/-- A run whose catch-up failed is not current. -/
theorem isCurrent_resume_of_failed {r : Replies} {event : Event} {downloader arming : Nat}
    {stage : CatchUp.Stage} {c : CatchUp} {e : RunError}
    (hrun : s.runs[run]? = some (.catchingUp downloader arming stage))
    (hc : s.catchUps[downloader]? = some c)
    (hturn : (c.resume r s.book arming stage event).turn = .ended (.error e)) :
    (s.resume r run event).isCurrent run = false := by
  unfold resume
  rw [hrun]
  dsimp only
  rw [hc]
  unfold afterCatchUp
  dsimp only
  rw [hturn]
  dsimp only
  split
  · exact isCurrent_finish _ run _
  · exact isCurrent_finish _ run _

/-- **A run that keeps a pivot block keeps to it**, and if it is current still then the pivot block
does not lie before the trusted block. -/
theorem Persists.act {x : Act} (h : Persists run pivot s x) (hsound : s.wiring.Sound) :
    (s.act x).KeepsTo run pivot ∧ ((s.act x).isCurrent run = true →
      ∃ downloader arming c, s.runs[run]? = some (.catchingUp downloader arming .selecting) ∧
        s.catchUps[downloader]? = some c ∧
        c.checkpoint.filter (pivot.number < ·.number) = none) := by
  obtain ⟨r, downloader, arming, rfl, hrun, hsave⟩ := h
  obtain ⟨c, hc⟩ := exists_catchUp_of_sound hsound hrun
  have hchosen : c.Acquires r pivot .selecting (.selected (.ok pivot)) (.savePivot pivot) :=
    .chosen hsave
  refine ⟨keepsTo_resume hrun hc fun stage' hwaiting =>
    ⟨_, _, hchosen.downloading_of_waiting hwaiting⟩, fun hcurrent => ?_⟩
  refine ⟨downloader, arming, c, hrun, hc, ?_⟩
  obtain ⟨calls, -, hcourse⟩ := c.course_resume r s.book arming .selecting (.selected (.ok pivot))
  obtain ⟨_, -, -, hrefused⟩ | ⟨hpassed, -⟩ := hcourse.of_acquires hchosen
  · have hover : (s.act (.step r run (.selected (.ok pivot)))).isCurrent run = false :=
      isCurrent_resume_of_failed hrun hc hrefused
    rw [hover] at hcurrent
    cases hcurrent
  · exact hpassed

end Synchronizer

/-! ### The next run -/

namespace CatchUp

variable {c : CatchUp} {r : Replies} {b : Logbook}

/-- No attempt goes back to its beginning. -/
theorem fresh_of_waiting {arming : Nat} {stage : Stage} {event : Event}
    (h : (c.resume r b arming stage event).turn = .waiting .fresh) : stage = .fresh := by
  obtain ⟨calls, -, hcourse⟩ := c.course_resume r b arming stage event
  rw [h] at hcourse
  cases hcourse with
  | waits => rfl
  | unstopped => rfl
  | unanswered _ _ _ hfailed => exact absurd hfailed.symm (Failure.turn_ne_waiting _ _)

end CatchUp

namespace Synchronizer

variable {s s₀ t : Synchronizer} {run : Nat} {pivot : SealedHeader} {k₀ : Option SealedHeader}

/-- No step takes a run back to where it had just been added. -/
theorem Becomes.isNew {r : Replies} {event : Event} {x x' : Run} (h : Becomes s r run event x x')
    (hnew : x'.IsNew) : x.IsNew := by
  have hpast : ¬ x'.IsPast := by
    cases x' with
    | fresh => exact id
    | catchingUp _ _ _ => exact id
    | _ => exact hnew.elim
  cases h with
  | stays => exact hnew
  | begins => trivial
  | @waits _ _ stage stage' _ _ hturn =>
    cases stage' with
    | fresh =>
      obtain rfl := CatchUp.fresh_of_waiting hturn
      trivial
    | _ => exact hnew.elim
  | breaks => exact hnew.elim
  | completes _ _ _ hpast' => exact absurd hpast' hpast
  | fails => exact hnew.elim
  | goes => exact hnew.elim
  | follows hpast' => exact absurd hpast' hpast

/-- A run that may have just been added and was there before may have been so then. -/
theorem isNew_of_act {x x' : Run} {a : Act} (hx : s.runs[run]? = some x)
    (hx' : (s.act a).runs[run]? = some x') (hnew : x'.IsNew) : x.IsNew := by
  obtain ⟨x'', hx'', hcases⟩ := exists_run_act hx a
  obtain rfl := Option.some.inj (hx'.symm.trans hx'')
  rcases hcases with rfl | ⟨r, event, -, hbecomes⟩
  · exact hnew
  · exact hbecomes.isNew hnew

/-- **Once a run has kept a pivot block it stays the kept one** until a later run begins, as long as
its own catch-up has not ended well, nobody starts over and no run that is not current keeps
another. The induction is on the history from its end. -/
theorem kept_after (hkeeps : t.KeepsTo run pivot) {rest : List Act}
    (hsince : ∀ a ∈ rest, a.startsOver = false) (hopen : ¬ Happened (Arrives run) t rest)
    (hlate : ¬ Happened PersistsLate t rest)
    (hnew : ∀ next x, run < next → (t.after rest).runs[next]? = some x → x.IsNew) :
    t.kept (some pivot) rest = some pivot := by
  induction rest using List.reverseRecOn with
  | nil => rfl
  | append_singleton rest a ih =>
    have hnew' : ∀ next x, run < next → (t.after rest).runs[next]? = some x → x.IsNew := by
      intro next x hlt hx
      obtain ⟨x', hx', -⟩ := exists_run_act hx a
      refine isNew_of_act hx hx' (hnew next x' hlt ?_)
      rw [after_concat]
      exact hx'
    have hkept := ih (fun b hb => hsince b (List.mem_append_left _ hb))
      (fun h => hopen (h.later [a])) (fun h => hlate (h.later [a])) hnew'
    -- the current run is the one that kept the pivot block, or a new one
    obtain ⟨x, hx, hxkeeps⟩ := hkeeps.after rest
    have hlatest : ∀ other, (t.after rest).isCurrent other = true →
        other = run ∨ run < other := by
      intro other hcurrent
      have hlast := eq_length_of_isCurrent hcurrent
      have hlt := (List.getElem?_eq_some_iff.mp hx).1
      omega
    rw [kept_concat, hkept]
    rcases keeps_cases (t.after rest) (some pivot) (hsince a (by simp)) with
      hsame | ⟨other, p, hpersists, -⟩ | ⟨other, harrives⟩
    · exact hsame
    · exfalso
      cases hcurrent : (t.after rest).isCurrent other with
      | false => exact hlate (.now ⟨other, p, hpersists, hcurrent⟩)
      | true =>
        obtain ⟨r, downloader, arming, -, hrun, -⟩ := hpersists
        rcases hlatest other hcurrent with rfl | hlt
        · obtain rfl := Option.some.inj (hx.symm.trans hrun)
          exact hxkeeps
        · exact hnew' other _ hlt hrun
    · exfalso
      obtain ⟨r, event, p, -, hcurrent, downloader, arming, stage, c, hrun, -, hturn⟩ :=
        id harrives
      rcases hlatest other hcurrent with rfl | hlt
      · exact hopen (.now harrives)
      · have hstage : (Run.catchingUp downloader arming stage).IsNew := hnew' other _ hlt hrun
        cases CatchUp.receives_of_ended hturn with
        | chain => exact hstage
        | state => exact hstage

/-! ### Downloaders that start over -/

/-- A synchronizer is assembled with a downloader that takes up a pivot block that is kept. -/
theorem resync_assemble {config : SyncConfig} {has : Collaborators} {isOver : Bool}
    {idle : Duration} {state : Option State} (hs : assemble config has isOver idle state = .ok s) :
    ∀ c ∈ s.catchUps, c.resync = false := by
  obtain rfl := eq_assembled hs
  intro c hc
  rw [mem_catchUps_assembled hc]
  rfl

/-- As long as nobody starts over the settings stay as they are. -/
theorem settings_after (s : Synchronizer) {h : List Act} (hh : ∀ a ∈ h, a.startsOver = false) :
    (s.after h).settings = s.settings :=
  after_induction (fun t => t.settings = s.settings) (fun a => a.startsOver = false) rfl
    (fun t _ ht ha => (t.settings_act ha).trans ht) hh

/-- The newest downloader starts over. -/
def IsRestarted (s : Synchronizer) : Prop :=
  ∃ last, s.settings.getLast? = some last ∧ last.resync = true

/-- Once the newest downloader starts over, so does every later one. -/
theorem IsRestarted.act (h : s.IsRestarted) (a : Act) : (s.act a).IsRestarted := by
  obtain ⟨last, hlast, hresync⟩ := h
  cases ha : a.startsOver with
  | false => exact ⟨last, by rw [s.settings_act ha, hlast], hresync⟩
  | true =>
    cases a with
    | resync r r' =>
      refine ⟨{ last with resync := true }, ?_, rfl⟩
      rw [show (s.act (.resync r r')).settings = _ from s.settings_resync r r', hlast]
      exact List.getLast?_concat
    | _ => cases ha

/-- **After somebody started over every newest downloader starts over**, also for runs that are
merely started. -/
theorem isRestarted_after (hcatchUps : s.catchUps ≠ []) {h : List Act}
    (hh : ∃ a ∈ h, a.startsOver = true) : (s.after h).IsRestarted := by
  induction h generalizing s with
  | nil => simp at hh
  | cons a h ih =>
    rw [after_cons]
    cases ha : a.startsOver with
    | true =>
      refine after_induction IsRestarted (fun _ => True) ?_ (fun _ b ht _ => ht.act b)
        fun _ _ => trivial
      cases a with
      | resync r r' =>
        obtain ⟨c, hc⟩ := exists_catchUp?_after hcatchUps []
        have hlast : s.settings.getLast? = some c.settings := by
          unfold settings
          rw [List.getLast?_map, show s.catchUps.getLast? = some c from hc]
          rfl
        refine ⟨{ c.settings with resync := true }, ?_, rfl⟩
        rw [show (s.act (.resync r r')).settings = _ from s.settings_resync r r', hlast]
        exact List.getLast?_concat
      | _ => cases ha
    | false =>
      obtain ⟨b, hb, hover⟩ := hh
      have hmem : b ∈ h := by
        rcases List.mem_cons.mp hb with rfl | hmem
        · rw [ha] at hover
          cases hover
        · exact hmem
      refine ih ?_ ⟨b, hmem, hover⟩
      have hpos := List.length_pos_iff.mpr hcatchUps
      have hle := s.length_catchUps_act a
      exact List.length_pos_iff.mp (by omega)

/-- The newest downloader has the last of the settings. -/
theorem settings_newest {downloader : Nat} {c : CatchUp}
    (hnewest : downloader + 1 = s.catchUps.length) (hc : s.catchUps[downloader]? = some c) :
    s.settings.getLast? = some c.settings := by
  rw [List.getLast?_eq_getElem?, show s.settings.length = s.catchUps.length from List.length_map _,
    ← hnewest]
  exact settings_of_catchUps hc

/-! ### Resuming -/

/-- A run whose catch-up does not end well forgets no pivot block. -/
theorem pursuit_of_not_ended {r : Replies} {event : Event} {downloader arming : Nat}
    {stage : CatchUp.Stage} {c : CatchUp}
    (hrun : s.runs[run]? = some (.catchingUp downloader arming stage))
    (hc : s.catchUps[downloader]? = some c)
    (hturn : ∀ p, (c.resume r s.book arming stage event).turn ≠ .ended (.ok p)) :
    s.pursuit r run event = c.pursuit r stage event := by
  rw [pursuit_of_catchingUp hrun hc]
  split
  next p hended => exact absurd hended (hturn p)
  · exact List.append_nil _

/-- What a run keeps is kept then. -/
theorem Persists.keeps {x : Act} (h : Persists run pivot s x) (hsound : s.wiring.Sound)
    (kept : Option SealedHeader) : s.keeps kept x = some pivot := by
  obtain ⟨r, downloader, arming, rfl, hrun, hsave⟩ := h
  obtain ⟨c, hc⟩ := exists_catchUp_of_sound hsound hrun
  have hpursuit : s.pursuit r run (.selected (.ok pivot)) =
      c.pursuit r .selecting (.selected (.ok pivot)) :=
    pursuit_of_not_ended hrun hc fun p hended => by cases CatchUp.receives_of_ended hended
  rw [keeps_eq]
  dsimp only [Act.replies?, pivotCalls]
  rw [hpursuit]
  dsimp only [CatchUp.pursuit]
  rw [hsave, List.foldl_cons, Call.stores, hsave]
  exact foldl_stores_taken c r r pivot (some pivot)

/-- A downloader that takes up a kept pivot block has its run read it and ask for what is there. -/
theorem pursuit_of_kept {c : CatchUp} {r : Replies} (hresync : c.resync = false)
    (hload : r.load = .ok (some pivot))
    (hcheckpoint : c.checkpoint.filter (pivot.number < ·.number) = none) :
    c.pursuit r .fresh .begun = .loadPivot :: .importToPivot c.startBlock pivot ::
      if r.importRefused.isNone then [.downloadState pivot c.stateMethod] else [] := by
  unfold CatchUp.pursuit CatchUp.taken
  dsimp only
  rw [hresync, hload, if_neg Bool.false_ne_true]
  dsimp only
  rw [hcheckpoint]
  cases r.importRefused <;> rfl

/-- A run that takes up a kept pivot block keeps to it. -/
theorem keepsTo_of_kept {r : Replies} {downloader arming : Nat} {c : CatchUp}
    (hrun : s.runs[run]? = some (.catchingUp downloader arming .fresh))
    (hc : s.catchUps[downloader]? = some c) (hresync : c.resync = false)
    (hload : r.load = .ok (some pivot)) : (s.resume r run .begun).KeepsTo run pivot := by
  refine keepsTo_resume hrun hc fun stage' hturn => ?_
  have htaken : c.Acquires r pivot .fresh .begun .loadPivot := .takenUp hresync hload
  exact ⟨_, _, htaken.downloading_of_waiting hturn⟩

/-- **Resuming a catch-up.** Assemble a synchronizer in a pivoted mode and let anything happen to
it, in any order and whatever the collaborators answer. In this history let a run keep a pivot block
that was chosen for it, and stay active with it. Before its catch-up ends well let it be stopped, or
come to its end by itself, and let the synchronizer be started again, while nobody starts over and
no run that is not current keeps another pivot block. When the next run begins, and the store gives
back what was last kept:

* if nobody ever started over, it takes up exactly that pivot block: it reads it and asks for the
  chain and the world state there. Whatever happens then, it has no pivot block chosen, reads and
  keeps none, asks for nothing else, and if it hands over it does so with that one;
* if somebody started over at any time before, it has a pivot block chosen and does not even read
  the kept one. -/
theorem interrupted_resumes {config : SyncConfig} {has : Collaborators} {isOver : Bool}
    {idle : Duration} {state : Option State}
    (hs : assemble config has isOver idle state = .ok s₀) (hpivoted : config.mode.isPivoted = true)
    {past : List Act} {x : Act} {rest : List Act}
    (hpersists : Persists run pivot (s₀.after past) x)
    (hactive : (s₀.after (past ++ [x])).isCurrent run = true)
    (hopen : ¬ Happened (Arrives run) (s₀.after (past ++ [x])) rest)
    (hsince : ∀ a ∈ rest, a.startsOver = false)
    (hlate : ¬ Happened PersistsLate (s₀.after (past ++ [x])) rest) {downloader arming : Nat}
    (hcurrent : (s₀.after (past ++ x :: rest)).isCurrent (run + 1) = true)
    (hfresh : (s₀.after (past ++ x :: rest)).runs[run + 1]? =
      some (.catchingUp downloader arming .fresh))
    {r : Replies} (hload : r.load = .ok (s₀.kept k₀ (past ++ x :: rest))) :
    let s := s₀.after (past ++ x :: rest)
    let t := s.resume r (run + 1) .begun
    ((∀ a ∈ past, a.startsOver = false) →
      (∃ start method, t.book.only Call.concernsPivot = s.book.only Call.concernsPivot ++
        .loadPivot :: .importToPivot start pivot ::
          if r.importRefused.isNone then [.downloadState pivot method] else []) ∧
      ∀ later, let u := t.after later
        ∀ r' event,
          ((u.resume r' (run + 1) event).book.only Call.concernsPivot =
            u.book.only Call.concernsPivot ++ u.pursuit r' (run + 1) event ∧
          ∀ c ∈ u.pursuit r' (run + 1) event, c = .deletePivot) ∧
          ∀ p, Completes u r' (run + 1) event p → p = pivot) ∧
    ((∃ a ∈ past, a.startsOver = true) →
      t.book.only Call.concernsPivot = s.book.only Call.concernsPivot ++ [.selectPivot]) := by
  intro s t
  obtain ⟨hpristine, hcatchUps⟩ := pristine_assemble hs
  have hsound : ∀ h, (s₀.after h).wiring.Sound := hpristine.sound_after
  obtain ⟨c, hc⟩ := exists_catchUp_of_sound (hsound _) hfresh
  have hnewest := newest_of_isCurrent (hsound _) hcurrent hfresh
  have hlast : s.settings.getLast? = some c.settings := settings_newest hnewest hc
  have hbook := s.pursuit_resume r (run + 1) .begun
  rw [show s.pursuit r (run + 1) .begun = c.pursuit r .fresh .begun from
    pursuit_of_not_ended hfresh hc fun p hended => by
      cases CatchUp.receives_of_ended hended] at hbook
  refine ⟨fun hpast => ?_, fun ⟨a, ha, hover⟩ => ?_⟩
  · rw [after_concat] at hactive hopen hlate
    obtain ⟨hkeeps, hpassed⟩ := hpersists.act (hsound past)
    obtain ⟨first, arming₁, c₁, hrun₁, hc₁, hcheckpoint⟩ := hpassed hactive
    have hx : x.startsOver = false := by
      obtain ⟨_, _, _, rfl, -⟩ := hpersists
      rfl
    -- both runs catch up with the first downloader, which takes up what is kept
    have hsettings : s.settings = s₀.settings :=
      s₀.settings_after (List.forall_mem_append.mpr ⟨hpast, List.forall_mem_cons.mpr ⟨hx, hsince⟩⟩)
    have hlast₁ : (s₀.after past).settings.getLast? = some c₁.settings :=
      settings_newest (newest_of_isCurrent (hsound _)
        (isCurrent_of_act hactive (List.getElem?_eq_some_iff.mp hrun₁).1) hrun₁) hc₁
    rw [s₀.settings_after hpast, ← hsettings, hlast] at hlast₁
    have hsame : c.checkpoint = c₁.checkpoint :=
      congrArg CatchUp.Settings.checkpoint (Option.some.inj hlast₁)
    rw [← hsame] at hcheckpoint
    have hresync : c.resync = false := by
      obtain ⟨c₀, hc₀, hfirst⟩ := List.mem_map.mp (hsettings ▸ List.mem_of_getLast? hlast)
      exact (congrArg CatchUp.Settings.resync hfirst).symm.trans (resync_assemble hs c₀ hc₀)
    -- the pivot block is kept until the next run begins
    have hkept : s₀.kept k₀ (past ++ x :: rest) = some pivot := by
      rw [kept_append, kept, hpersists.keeps (hsound past)]
      refine kept_after hkeeps hsince hopen hlate fun next y hlt hy => ?_
      rw [← after_cons, ← after_append] at hy
      have hlength := eq_length_of_isCurrent hcurrent
      have hnext : next = run + 1 := by
        have hbound := (List.getElem?_eq_some_iff.mp hy).1
        omega
      subst hnext
      obtain rfl := Option.some.inj (hy.symm.trans hfresh)
      trivial
    rw [hkept] at hload
    have hkeeps' : t.KeepsTo (run + 1) pivot := keepsTo_of_kept hfresh hc hresync hload
    refine ⟨⟨c.startBlock, c.stateMethod, ?_⟩, fun later => ?_⟩
    · rw [← pursuit_of_kept hresync hload hcheckpoint]
      exact hbook
    · intro u r' event
      exact ⟨⟨u.pursuit_resume r' (run + 1) event, fun _ => (hkeeps'.after later).eq_deletePivot⟩,
        fun _ => (hkeeps'.after later).eq_of_completes⟩
  · obtain ⟨last, hrestarted, hover⟩ := isRestarted_after (hcatchUps.mpr hpivoted)
      (h := past ++ x :: rest) ⟨a, List.mem_append_left _ ha, hover⟩
    have hresync : c.resync = true := by
      obtain rfl := Option.some.inj (hlast.symm.trans hrestarted)
      exact hover
    rw [CatchUp.pursuit, if_pos hresync] at hbook
    exact hbook

/-- A run that was stopped while it downloaded is resumed. -/
theorem interrupted_resumes_of_stopped :
    let past : List Act := [.start (agreeable false), .step (agreeable true) 0 .begun]
    let x : Act := .step (agreeable true) 0 (.selected (.ok default))
    let rest : List Act := [.stop (agreeable true), .start (agreeable false)]
    let s := usual.after (past ++ x :: rest)
    let r := { agreeable true with load := .ok (some default) }
    assemble {} {} false FullSync.defaultIdle none = .ok usual ∧
      ({} : SyncConfig).mode.isPivoted = true ∧ Persists 0 default (usual.after past) x ∧
      (usual.after (past ++ [x])).isCurrent 0 = true ∧ s.isCurrent 1 = true ∧
      usual.kept none (past ++ x :: rest) = some default ∧
      ∃ start method, (s.resume r 1 .begun).book.only Call.concernsPivot =
        s.book.only Call.concernsPivot ++
          [.loadPivot, .importToPivot start default, .downloadState default method] := by
  intro past x rest s r
  have hpersists : Persists 0 default (usual.after past) x := ⟨agreeable true, 0, 1, rfl, rfl, rfl⟩
  have hsteps : ∀ a ∈ rest, ∀ r run event, a ≠ .step r run event := by
    simp [rest]
  have hopen : ¬ Happened (Arrives 0) (usual.after (past ++ [x])) rest := fun h => by
    obtain ⟨_, ha, _, r, event, _, rfl, -⟩ := h.exists_mem
    exact hsteps _ ha r 0 event rfl
  have hlate : ¬ Happened PersistsLate (usual.after (past ++ [x])) rest := fun h => by
    obtain ⟨_, ha, _, run, _, ⟨r, _, _, rfl, -⟩, -⟩ := h.exists_mem
    exact hsteps _ ha r run _ rfl
  have hload : r.load = .ok (usual.kept none (past ++ x :: rest)) := rfl
  have hresumes := (interrupted_resumes assemble_usual rfl hpersists rfl hopen
    (by simp [rest, Act.startsOver]) hlate (rfl : s.isCurrent 1 = true) rfl hload).1
    (by simp [past, Act.startsOver])
  exact ⟨assemble_usual, rfl, hpersists, rfl, rfl, rfl, hresumes.1⟩

/-- Another pivot block than the usual one. -/
def latePivot : SealedHeader where
  header := { (default : Header) with number := 1 }
  hash := default

/-- A run that was begun by starting over keeps a pivot block and is stopped; the next one has a new
pivot block chosen all the same. A run that was stopped while it waited for its pivot block may keep
that after the next run kept its own; the one after takes up the wrong one. -/
theorem restarted_selects_anew :
    assemble {} {} false FullSync.defaultIdle none = .ok usual ∧
    (let past : List Act := [.resync (agreeable false) (agreeable false),
        .step (agreeable true) 0 .begun]
      let x : Act := .step (agreeable true) 0 (.selected (.ok default))
      let h := past ++ x :: [.stop (agreeable true), .start (agreeable false)]
      let r := { agreeable true with load := .ok (usual.kept none h) }
      Truthful usual h ∧ Persists 0 default (usual.after past) x ∧
        (usual.after (past ++ [x])).isCurrent 0 = true ∧ (usual.after h).isCurrent 1 = true ∧
        r.load = .ok (some default) ∧ (usual.after h).pursuit r 1 .begun = [.selectPivot]) ∧
    (let past : List Act := [.start (agreeable false), .step (agreeable true) 0 .begun,
        .stop (agreeable true), .start (agreeable false), .step (agreeable true) 1 .begun]
      let x : Act := .step (agreeable true) 1 (.selected (.ok default))
      let h := past ++ x :: [.step (agreeable true) 0 (.selected (.ok latePivot)),
        .stop (agreeable true), .start (agreeable false)]
      let r := { agreeable true with load := .ok (usual.kept none h) }
      Truthful usual h ∧ Persists 1 default (usual.after past) x ∧
        (usual.after (past ++ [x])).isCurrent 1 = true ∧ (usual.after h).isCurrent 2 = true ∧
        (usual.after h).pursuit r 2 .begun =
          [.loadPivot, .importToPivot none latePivot, .downloadState latePivot .ranges]) := by
  refine ⟨assemble_usual, ⟨?_, ⟨agreeable true, 1, 1, rfl, rfl, rfl⟩, rfl, rfl, rfl, rfl⟩,
    ⟨?_, ⟨agreeable true, 0, 2, rfl, rfl, rfl⟩, rfl, rfl, rfl⟩⟩
  · exact ⟨fun _ => ⟨rfl, rfl⟩, trivial, trivial, fun _ => rfl, fun _ => rfl, trivial⟩
  · exact ⟨fun _ => rfl, trivial, fun _ => rfl, fun _ => rfl, trivial, trivial, trivial,
      fun _ => rfl, fun _ => rfl, trivial⟩

end Synchronizer

end ExecutionNode.Sync
