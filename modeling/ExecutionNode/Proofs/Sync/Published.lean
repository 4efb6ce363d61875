import ExecutionNode.Proofs.Sync.Attempt
import ExecutionNode.Proofs.Sync.Resumption

/-!
# Published pivot blocks

An attempt publishes its pivot block when it takes one up that does not lie before the trusted
block, and then asks for the chain there.  The downloader remembers that block for whoever asks
which peers are needed.  It remembers the one published last, not the one of its latest attempt:
what an attempt published stays until some attempt of the same downloader publishes another.

* `CatchUp.pivot_resume`: a step remembers what it published.
* `CatchUp.pivot?_of_waiting`: an attempt published its pivot block exactly when it has one.
* `Synchronizer.publications`: what is published in a history, in order, by which run and with
  which downloader.
* `Synchronizer.remembered_after`: a downloader remembers what was last published with it.
* `Synchronizer.Pristine.owns_after`: a run that catches up published the pivot block that it
  has, and nothing else.
-/

namespace ExecutionNode.Sync

/-! ### An attempt -/

namespace CatchUp

/-- The pivot block that an attempt publishes in a step. -/
def published? (c : CatchUp) (r : Replies) (stage : Stage) (event : Event) : Option SealedHeader :=
  (c.pursuit r stage event).findSome? Call.downloads?

/-- The pivot block that an attempt has. -/
def Stage.pivot? : Stage → Option SealedHeader
  | .downloading pivot _ _ => some pivot
  | _ => none

variable {c : CatchUp} {r : Replies} {b : Logbook} {best : UInt64} {arming : Nat}
  {stage stage' : Stage} {event : Event} {calls : List Call} {turn : Turn Stage SealedHeader}
  {pivot : SealedHeader}

/-- An attempt with a pivot block remembers it unless it is refused. -/
theorem pivot_adopt (c : CatchUp) (r : Replies) (b : Logbook) (pivot : SealedHeader) :
    (c.adopt r b pivot).catchUp.pivot =
      ((c.taken r pivot).findSome? Call.downloads?).or c.pivot := by
  unfold adopt taken
  cases c.checkpoint.filter (pivot.number < ·.number) with
  | some trusted => rfl
  | none =>
    dsimp only
    cases r.importRefused with
    | some failure => rfl
    | none => rfl

/-- What an attempt received does not matter for what is remembered. -/
theorem pivot_receive (c : CatchUp) (b : Logbook) (pivot : SealedHeader)
    (chainDone stateDone : Bool) :
    (c.receive b pivot chainDone stateDone).catchUp.pivot = c.pivot := by
  unfold receive
  split <;> rfl

/-- To begin remembers what is published then. -/
theorem pivot_begin (c : CatchUp) (r : Replies) (b : Logbook) :
    (c.begin r b).catchUp.pivot = (c.published? r .fresh .begun).or c.pivot := by
  unfold begin published? pursuit
  split
  next => rfl
  next =>
    cases r.load with
    | error f => rfl
    | ok kept =>
      cases kept with
      | none => rfl
      | some pivot => exact c.pivot_adopt r _ pivot

/-- To keep a pivot block that was chosen remembers it if it is published. -/
theorem pivot_keep (c : CatchUp) (r : Replies) (b : Logbook) (pivot : SealedHeader) :
    (c.keep r b pivot).catchUp.pivot =
      (c.published? r .selecting (.selected (.ok pivot))).or c.pivot := by
  unfold keep published? pursuit
  cases hsave : r.save with
  | error f => rfl
  | ok _ => exact c.pivot_adopt r _ pivot

/-- To go on remembers what is published then. -/
theorem pivot_advance (c : CatchUp) (r : Replies) (b : Logbook) (stage : Stage) (event : Event) :
    (c.advance r b stage event).catchUp.pivot = (c.published? r stage event).or c.pivot := by
  cases stage with
  | fresh =>
    cases event with
    | begun => exact c.pivot_begin r b
    | _ => rfl
  | selecting =>
    cases event with
    | selected result =>
      cases result with
      | ok pivot => exact c.pivot_keep r b pivot
      | error e => rfl
    | _ => rfl
  | downloading pivot chainDone stateDone =>
    cases event with
    | chainImported result =>
      cases chainDone with
      | true => cases stateDone <;> rfl
      | false =>
        cases result with
        | ok _ => exact c.pivot_receive b pivot true stateDone
        | error e => rfl
    | stateDownloaded result =>
      cases stateDone with
      | true => cases chainDone <;> cases result <;> rfl
      | false =>
        cases result with
        | ok _ => cases chainDone <;> exact c.pivot_receive b pivot _ true
        | error e => cases chainDone <;> rfl
    | _ => cases chainDone <;> cases stateDone <;> rfl

/-- **A step remembers what it published**, and else what was remembered before. -/
theorem pivot_resume (c : CatchUp) (r : Replies) (b : Logbook) (arming : Nat) (stage : Stage)
    (event : Event) :
    (c.resume r b arming stage event).catchUp.pivot =
      (c.published? r stage event).or c.pivot := by
  have hwork : (c.work r b arming stage event).catchUp.pivot =
      (c.published? r stage event).or c.pivot := by
    unfold work
    split
    · have hnone : c.published? r stage .stopSignalled = none := by
        cases stage <;> rfl
      rw [hnone, Option.none_or]
      split <;> rfl
    · exact c.pivot_advance r b stage event
  rw [← hwork, resume_eq_work]
  split <;> rfl

/-- What is published tells from the calls of a course. -/
theorem Course.published? (h : c.Course r best arming stage event calls turn) :
    c.published? r stage event = calls.findSome? Call.downloads? := by
  unfold CatchUp.published?
  rw [← h.pursuit]
  clear h
  induction calls with
  | nil => rfl
  | cons call calls ih =>
    rw [List.filter_cons, List.findSome?_cons]
    split
    · rw [List.findSome?_cons, ih]
    next hother =>
      have hnone : call.downloads? = none :=
        Option.eq_none_iff_forall_ne_some.mpr fun _ hasked => hother (Call.of_downloads? hasked).1
      rw [ih, hnone]

/-- What comes before the downloads of a pivot block is no download. -/
theorem Acquires.findSome?_downloads {lead : Call} (h : c.Acquires r pivot stage event lead)
    (rest : List Call) :
    (lead :: publishing best pivot ++ rest).findSome? Call.downloads? =
      rest.findSome? Call.downloads? := by
  rw [List.findSome?_append, List.findSome?_eq_none_iff.mpr fun _ => h.downloads?_of_mem,
    Option.none_or]

/-- **An attempt that waits published the pivot block that it has**, unless it had that before. -/
theorem pivot?_of_waiting (h : (c.resume r b arming stage event).turn = .waiting stage') :
    stage'.pivot? = (c.published? r stage event).or stage.pivot? := by
  obtain ⟨calls, -, hcourse⟩ := c.course_resume r b arming stage event
  rw [hcourse.published?]
  rw [h] at hcourse
  cases hcourse with
  | waits => rfl
  | unstopped => rfl
  | startsOver => rfl
  | findsNone => rfl
  | downloads hacquires => rw [hacquires.findSome?_downloads]; rfl
  | unanswered _ _ _ hfailed => exact absurd hfailed.symm (Failure.turn_ne_waiting _ _)
  | receives hreceives => cases hreceives <;> rfl

/-- Who has a pivot block publishes no other. -/
theorem published?_of_downloading (c : CatchUp) (r : Replies) (pivot : SealedHeader)
    (chainDone stateDone : Bool) (event : Event) :
    c.published? r (.downloading pivot chainDone stateDone) event = none := rfl

end CatchUp

/-! ### A history -/

/-- A pivot block that a run published, with its downloader. -/
structure Publication where
  /-- The run. -/
  run : Nat
  /-- The downloader. -/
  downloader : Nat
  /-- The pivot block. -/
  pivot : SealedHeader

/-- The pivot block that was published last with a downloader. -/
def lastPublished? (downloader : Nat) (publications : List Publication) : Option SealedHeader :=
  publications.reverse.findSome? fun p => if p.downloader = downloader then some p.pivot else none

/-- What was published last is the last of the later ones, if any. -/
theorem lastPublished?_append (downloader : Nat) (earlier later : List Publication) :
    lastPublished? downloader (earlier ++ later) =
      (lastPublished? downloader later).or (lastPublished? downloader earlier) := by
  unfold lastPublished?
  rw [List.reverse_append, List.findSome?_append]

/-- With a downloader that nobody used nothing was published. -/
theorem lastPublished?_of_unused {downloader : Nat} {publications : List Publication}
    (h : ∀ p ∈ publications, p.downloader ≠ downloader) :
    lastPublished? downloader publications = none :=
  List.findSome?_eq_none_iff.mpr fun p hp => if_neg (h p (List.mem_reverse.mp hp))

/-- What was published after the last use of a downloader does not matter. -/
theorem lastPublished?_of_last {run downloader : Nat} {pivot : SealedHeader}
    {earlier later : List Publication} (h : ∀ p ∈ later, p.downloader ≠ downloader) :
    lastPublished? downloader (earlier ++ ⟨run, downloader, pivot⟩ :: later) = some pivot := by
  rw [lastPublished?_append, ← List.singleton_append, lastPublished?_append,
    lastPublished?_of_unused h]
  simp [lastPublished?]

/-- The pivot blocks that a run published. -/
def ofRun (run : Nat) (publications : List Publication) : List Publication :=
  publications.filter (·.run == run)

/-- What a run published lately comes after what it published before. -/
theorem ofRun_append (run : Nat) (earlier later : List Publication) :
    ofRun run (earlier ++ later) = ofRun run earlier ++ ofRun run later :=
  List.filter_append ..

/-- A run published nothing if everything was published by others. -/
theorem ofRun_eq_nil {run : Nat} {publications : List Publication}
    (h : ∀ p ∈ publications, p.run ≠ run) : ofRun run publications = [] :=
  List.filter_eq_nil_iff.mpr fun p hp heq => h p hp (beq_iff_eq.mp heq)

/-- Of what one run published everything is its own. -/
theorem ofRun_eq_self {run : Nat} {publications : List Publication}
    (h : ∀ p ∈ publications, p.run = run) : ofRun run publications = publications :=
  List.filter_eq_self.mpr fun p hp => beq_iff_eq.mpr (h p hp)

namespace Synchronizer

variable {s : Synchronizer} {run : Nat} {a : Act} {published : List Publication}

/-- What a run publishes in a step. -/
def runPublishes (s : Synchronizer) (r : Replies) (run : Nat) (event : Event) :
    List Publication :=
  match s.runs[run]? with
  | some (.catchingUp downloader _ stage) =>
    match s.catchUps[downloader]? with
    | some c => ((c.published? r stage event).map (⟨run, downloader, ·⟩)).toList
    | none => []
  | _ => []

/-- What is published when something happens. -/
def publishes (s : Synchronizer) : Act → List Publication
  | .step r run event => s.runPublishes r run event
  | _ => []

/-- What is published in a history, in order. -/
def publications (s : Synchronizer) : List Act → List Publication
  | [] => []
  | a :: h => s.publishes a ++ (s.act a).publications h

/-- What is published in the end comes last. -/
theorem publications_concat (s : Synchronizer) (h : List Act) (a : Act) :
    s.publications (h ++ [a]) = s.publications h ++ (s.after h).publishes a := by
  induction h generalizing s with
  | nil => exact List.append_nil _
  | cons x h ih =>
    rw [List.cons_append, publications, ih, publications, List.append_assoc]
    rfl

/-- What a run that catches up publishes in a step. -/
theorem runPublishes_of_catchingUp {downloader arming : Nat} {stage : CatchUp.Stage} {c : CatchUp}
    (hrun : s.runs[run]? = some (.catchingUp downloader arming stage))
    (hc : s.catchUps[downloader]? = some c) (r : Replies) (event : Event) :
    s.runPublishes r run event =
      ((c.published? r stage event).map (⟨run, downloader, ·⟩)).toList := by
  unfold runPublishes
  rw [hrun]
  dsimp only
  rw [hc]

/-- What a run publishes is its own. -/
theorem run_eq_of_mem_runPublishes {r : Replies} {event : Event} {p : Publication}
    (h : p ∈ s.runPublishes r run event) : p.run = run ∧ run < s.runs.length := by
  unfold runPublishes at h
  split at h
  next hrun =>
    split at h
    · obtain ⟨pivot, -, rfl⟩ := Option.map_eq_some_iff.mp (Option.mem_toList.mp h)
      exact ⟨rfl, (List.getElem?_eq_some_iff.mp hrun).1⟩
    · cases h
  · cases h

/-! ### What downloaders remember -/

/-- The downloaders after a step of a catch-up. -/
theorem catchUps_afterCatchUp (s : Synchronizer) (r : Replies) (run downloader arming : Nat)
    (o : CatchUp.Outcome) :
    (s.afterCatchUp r run downloader arming o).catchUps =
      s.catchUps.set downloader o.catchUp := by
  unfold afterCatchUp
  dsimp only
  cases o.turn with
  | waiting stage => rfl
  | panicked => rfl
  | ended result =>
    dsimp only
    split
    · cases result with
      | ok pivot => exact (spares_handOver _ r run pivot).catchUps
      | error e => exact (spares_finish _ run _).catchUps
    · exact (spares_finish _ run _).catchUps

/-- A step of a run that catches up is one of its attempt. -/
theorem resume_of_catchingUp {downloader arming : Nat} {stage : CatchUp.Stage} {c : CatchUp}
    (hrun : s.runs[run]? = some (.catchingUp downloader arming stage))
    (hc : s.catchUps[downloader]? = some c) (r : Replies) (event : Event) :
    s.resume r run event =
      s.afterCatchUp r run downloader arming (c.resume r s.book arming stage event) := by
  unfold resume
  rw [hrun]
  dsimp only
  rw [hc]

/-- The downloaders after a step of a run that catches up. -/
theorem catchUps_resume_of_catchingUp {downloader arming : Nat} {stage : CatchUp.Stage}
    {c : CatchUp} (hrun : s.runs[run]? = some (.catchingUp downloader arming stage))
    (hc : s.catchUps[downloader]? = some c) (r : Replies) (event : Event) :
    (s.resume r run event).catchUps =
      s.catchUps.set downloader (c.resume r s.book arming stage event).catchUp := by
  rw [resume_of_catchingUp hrun hc, catchUps_afterCatchUp]

/-- The downloaders stay as they are when a run makes a step that does not catch up. -/
theorem catchUps_resume_of_not
    (h : ∀ downloader arming stage c, s.runs[run]? = some (.catchingUp downloader arming stage) →
      s.catchUps[downloader]? ≠ some c) (r : Replies) (event : Event) :
    (s.resume r run event).catchUps = s.catchUps := by
  unfold resume
  cases hrun : s.runs[run]? with
  | none => rfl
  | some x =>
    cases x with
    | fresh =>
      dsimp only
      split
      · exact (((s.spares_change .initialDone).trans (spares_enableFallback _ r)).trans
          (spares_follow _ r run)).catchUps
      · rfl
    | catchingUp downloader arming stage =>
      dsimp only
      split
      next c hc => exact absurd hc (h downloader arming stage c hrun)
      · rfl
    | following arming stage =>
      dsimp only
      split
      next f _ =>
        exact (s.spares_afterFullSync r run arming (f.pivots_resume r _ _ _ _)).catchUps
      · rfl
    | ended result => rfl
    | panicked => rfl

/-- The pivot block that a downloader remembers. -/
def remembered? (s : Synchronizer) (downloader : Nat) : Option SealedHeader :=
  s.catchUps[downloader]?.bind (·.pivot)

/-- A downloader remembers what the pivot blocks of all downloaders say. -/
theorem remembered?_eq (s : Synchronizer) (downloader : Nat) :
    s.remembered? downloader = (s.catchUps.map (·.pivot))[downloader]?.join := by
  unfold remembered?
  rw [List.getElem?_map]
  cases s.catchUps[downloader]? <;> rfl

/-- To start over leaves the downloaders what they remember, and the new one remembers nothing. -/
theorem remembered?_resync (s : Synchronizer) (r r' : Replies) (downloader : Nat) :
    (s.resync r r').2.remembered? downloader = s.remembered? downloader := by
  have hadded : ∀ (pivots : List (Option SealedHeader)) (c? : Option CatchUp),
      (pivots ++ (c?.map fun c => c.anew.pivot).toList)[downloader]?.join =
        pivots[downloader]?.join := by
    intro pivots c?
    rw [List.getElem?_append]
    split
    · rfl
    next hge =>
      rw [List.getElem?_eq_none (Nat.le_of_not_lt hge)]
      cases c? with
      | none => rfl
      | some c => cases downloader - pivots.length <;> rfl
  rw [remembered?_eq, remembered?_eq,
    s.map_catchUps_resync r r' (fun _ => rfl) fun _ => rfl, hadded]

/-- A step of a run makes its downloader remember what it published. -/
theorem remembered?_resume (s : Synchronizer) (r : Replies) (run : Nat) (event : Event)
    (downloader : Nat) :
    (s.resume r run event).remembered? downloader =
      (lastPublished? downloader (s.runPublishes r run event)).or (s.remembered? downloader) := by
  by_cases hcatchingUp : ∃ own arming stage c,
      s.runs[run]? = some (.catchingUp own arming stage) ∧ s.catchUps[own]? = some c
  · obtain ⟨own, arming, stage, c, hrun, hc⟩ := hcatchingUp
    have hpivot := c.pivot_resume r s.book arming stage event
    unfold remembered?
    rw [catchUps_resume_of_catchingUp hrun hc, runPublishes_of_catchingUp hrun hc,
      List.getElem?_set]
    by_cases hown : own = downloader
    · subst hown
      rw [if_pos rfl, if_pos (List.getElem?_eq_some_iff.mp hc).1, hc, Option.bind_some,
        Option.bind_some, hpivot]
      cases c.published? r stage event <;> simp [lastPublished?]
    · rw [if_neg hown]
      cases c.published? r stage event <;> simp [lastPublished?, hown]
  · have hnone : s.runPublishes r run event = [] := by
      unfold runPublishes
      split
      next own arming stage hrun =>
        split
        next c hc => exact absurd ⟨own, arming, stage, c, hrun, hc⟩ hcatchingUp
        · rfl
      · rfl
    rw [hnone, remembered?, catchUps_resume_of_not fun own arming stage c hrun hc =>
      hcatchingUp ⟨own, arming, stage, c, hrun, hc⟩]
    rfl

/-- **Nothing but what is published changes what a downloader remembers.** -/
theorem remembered?_act (s : Synchronizer) (a : Act) (downloader : Nat) :
    (s.act a).remembered? downloader =
      (lastPublished? downloader (s.publishes a)).or (s.remembered? downloader) := by
  cases a with
  | start r =>
    dsimp only [act]
    split
    next t hstart =>
      rw [remembered?_eq, map_catchUps_start hstart fun _ => rfl, ← remembered?_eq]
      rfl
    · rfl
  | stop r =>
    rw [show s.act (.stop r) = s.stop r from rfl, remembered?_eq,
      s.map_catchUps_stop r fun _ => rfl, ← remembered?_eq]
    rfl
  | resync r r' => exact s.remembered?_resync r r' downloader
  | step r run event => exact s.remembered?_resume r run event downloader
  | announce state =>
    unfold remembered?
    dsimp only [act, announce]
    rw [callIf_eq, callIf_eq]
    rfl
  | operate op => rfl

/-- **A downloader remembers the pivot block that was last published with it**, by whichever run. -/
theorem remembered_after (hs : ∀ c ∈ s.catchUps, c.pivot = none) (h : List Act)
    (downloader : Nat) :
    (s.after h).remembered? downloader = lastPublished? downloader (s.publications h) := by
  induction h using List.reverseRecOn with
  | nil =>
    rw [after_nil, remembered?]
    cases hc : s.catchUps[downloader]? with
    | none => rfl
    | some c => exact hs c (List.mem_of_getElem? hc)
  | append_singleton h a ih =>
    rw [after_concat, remembered?_act, ih, publications_concat, lastPublished?_append]

/-! ### What runs published -/

/-- What a step of a catch-up makes of its run: it catches up still, or is past that. -/
theorem runs_afterCatchUp (s : Synchronizer) (r : Replies) (run downloader arming : Nat)
    (o : CatchUp.Outcome) :
    ∃ x, (s.afterCatchUp r run downloader arming o).runs = s.runs.set run x ∧
      (x.IsPast ∨ ∃ stage, o.turn = .waiting stage ∧ x = .catchingUp downloader arming stage) := by
  unfold afterCatchUp
  dsimp only
  cases o.turn with
  | waiting stage => exact ⟨_, rfl, .inr ⟨stage, rfl, rfl⟩⟩
  | panicked => exact ⟨.panicked, rfl, .inl trivial⟩
  | ended result =>
    dsimp only
    split
    · cases result with
      | ok pivot =>
        obtain ⟨x, hpast, -, hruns⟩ := runs_handOver _ r run pivot
        exact ⟨x, hruns, .inl hpast⟩
      | error e => exact ⟨.ended (.error e), runs_finish _ run _, .inl trivial⟩
    · exact ⟨.ended (.ok ()), runs_finish _ run _, .inl trivial⟩

/-- A run that catches up after a step waits as the step left it. -/
theorem waiting_of_catchingUp {r : Replies} {event : Event} {downloader arming : Nat}
    {stage : CatchUp.Stage} {c : CatchUp}
    (hrun : s.runs[run]? = some (.catchingUp downloader arming stage))
    (hc : s.catchUps[downloader]? = some c) {downloader' arming' : Nat} {stage' : CatchUp.Stage}
    (h : (s.resume r run event).runs[run]? = some (.catchingUp downloader' arming' stage')) :
    downloader' = downloader ∧
      (c.resume r s.book arming stage event).turn = .waiting stage' := by
  obtain ⟨x, hruns, hx⟩ := s.runs_afterCatchUp r run downloader arming
    (c.resume r s.book arming stage event)
  have hlt := (List.getElem?_eq_some_iff.mp hrun).1
  rw [resume_of_catchingUp hrun hc, hruns, List.getElem?_set_self hlt] at h
  obtain rfl := Option.some.inj h
  rcases hx with hpast | ⟨stage, hturn, heq⟩
  · exact hpast.elim
  · cases heq
    exact ⟨rfl, hturn⟩

/-- What is published is published by a run that is there, and makes a step. -/
theorem of_mem_publishes {p : Publication} (h : p ∈ s.publishes a) :
    p.run < s.runs.length ∧ ∃ r event, a = .step r p.run event := by
  cases a with
  | step r run event =>
    obtain ⟨rfl, hlt⟩ := run_eq_of_mem_runPublishes h
    exact ⟨hlt, r, event, rfl⟩
  | _ => cases h

/-- What was published was published by runs that are there. A run that catches up published the
pivot block that it has, and nothing else. -/
structure Owns (s : Synchronizer) (published : List Publication) : Prop where
  /-- The runs are there. -/
  there : ∀ p ∈ published, p.run < s.runs.length
  /-- A run that catches up published what it has. -/
  own : ∀ {run downloader arming : Nat} {stage : CatchUp.Stage},
    s.runs[run]? = some (.catchingUp downloader arming stage) →
      ofRun run published = (stage.pivot?.map (⟨run, downloader, ·⟩)).toList

/-- A run that is not there published nothing. -/
theorem Owns.ofRun_eq_nil (h : s.Owns published) (hrun : s.runs[run]? = none) :
    ofRun run published = [] := by
  refine Sync.ofRun_eq_nil fun p hp heq => ?_
  have hlt := h.there p hp
  rw [heq] at hlt
  rw [List.getElem?_eq_none_iff] at hrun
  omega

/-- **A step of a run publishes what the run has then**, if it did not have it before. -/
theorem Owns.step (h : s.Owns published) (hsound : s.wiring.Sound) {r : Replies} {event : Event}
    {downloader arming : Nat} {stage : CatchUp.Stage}
    (hrun : (s.resume r run event).runs[run]? = some (.catchingUp downloader arming stage)) :
    ofRun run (published ++ s.runPublishes r run event) =
      (stage.pivot?.map (⟨run, downloader, ·⟩)).toList := by
  cases hx : s.runs[run]? with
  | none =>
    rw [resume_of_none hx, hx] at hrun
    cases hrun
  | some x =>
    by_cases hcatchingUp : ∃ own arming stage, x = .catchingUp own arming stage
    · obtain ⟨own, arming', before, rfl⟩ := hcatchingUp
      obtain ⟨c, hc⟩ := exists_catchUp_of_sound hsound hx
      obtain ⟨rfl, hturn⟩ := waiting_of_catchingUp hx hc hrun
      rw [ofRun_append, h.own hx, ofRun_eq_self fun p hp => (run_eq_of_mem_runPublishes hp).1,
        runPublishes_of_catchingUp hx hc, CatchUp.pivot?_of_waiting hturn]
      cases before with
      | downloading pivot chainDone stateDone => rw [c.published?_of_downloading]; rfl
      | fresh => cases c.published? r .fresh event <;> rfl
      | selecting => cases c.published? r .selecting event <;> rfl
    · -- only a run that catches up does so after a step
      obtain ⟨x', hbecomes, hruns⟩ := s.becomes_resume r event hx
      rw [hruns, List.getElem?_set_self (List.getElem?_eq_some_iff.mp hx).1] at hrun
      obtain rfl := Option.some.inj hrun
      cases hbecomes with
      | stays => exact absurd ⟨_, _, _, rfl⟩ hcatchingUp
      | begins hpast => exact hpast.elim
      | follows hpast => exact hpast.elim
      | _ => exact absurd ⟨_, _, _, rfl⟩ hcatchingUp

/-- **Whatever happens, runs that catch up published what they have.** -/
theorem Owns.act (h : s.Owns published) (hsound : s.wiring.Sound) (a : Act) :
    (s.act a).Owns (published ++ s.publishes a) := by
  refine ⟨fun p hp => ?_, fun {run downloader arming stage} hrun => ?_⟩
  · have hlt : p.run < s.runs.length := (List.mem_append.mp hp).elim (h.there p) fun hnew =>
      (of_mem_publishes hnew).1
    exact Nat.lt_of_lt_of_le hlt (s.length_runs_act a)
  · by_cases hstep : ∃ r event, a = .step r run event
    · obtain ⟨r, event, rfl⟩ := hstep
      exact h.step hsound hrun
    · have hnone : ofRun run (s.publishes a) = [] := Sync.ofRun_eq_nil fun p hp heq => by
        obtain ⟨-, r, event, rfl⟩ := of_mem_publishes hp
        exact hstep ⟨r, event, by rw [heq]⟩
      rw [ofRun_append, hnone, List.append_nil]
      cases hx : s.runs[run]? with
      | some x =>
        obtain ⟨x', hx', rfl | ⟨r, event, hact, -⟩⟩ := exists_run_act hx a
        · rw [hrun] at hx'
          obtain rfl := Option.some.inj hx'
          exact h.own hx
        · exact absurd ⟨r, event, hact⟩ hstep
      | none =>
        rw [h.ofRun_eq_nil hx]
        rcases s.run_act_cases a hrun with ⟨x, hold, -⟩ | hnew
        · rw [hx] at hold
          cases hold
        · cases stage with
          | fresh => rfl
          | _ => exact hnew.elim

/-- **In every history, a run that catches up published the pivot block that it has**, and nothing
else. -/
theorem Pristine.owns_after (hs : s.Pristine) (h : List Act) :
    (s.after h).Owns (s.publications h) := by
  induction h using List.reverseRecOn with
  | nil =>
    refine ⟨nofun, fun {run _ _ _} hrun => ?_⟩
    rw [after_nil, hs.runs] at hrun
    cases hrun
  | append_singleton h a ih =>
    rw [after_concat, publications_concat]
    exact ih.act (hs.sound_after h) a

end Synchronizer

end ExecutionNode.Sync
