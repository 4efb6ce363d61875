import ExecutionNode.Proofs.Sync.Polling

/-!
# The height that peers agree on

A pivot block that is chosen by the heads of the peers lies a fixed distance behind the greatest
height that enough of them reach.  Whoever controls fewer peers than are enough cannot raise that
height above what one of the others announced.

* `agreed?_eq_some_iff`: the entry that is picked from the sorted heads is that greatest height.
* `le_of_minority`: what a minority announces does not carry it further than the others are.
* `agreement_robust`: what becomes of a whole search, whatever the polls see.  A search whose
  deadline the clock cannot show never gets under way (`timeless_search_undecided`).
-/

namespace ExecutionNode.Sync

/-! ### The entry of a rank -/

/-- An entry of heights in descending order reaches a height exactly if more entries do than there
are before it. -/
theorem le_getElem_iff_lt_countP {l : List UInt64} (hl : l.Pairwise (· ≥ ·)) {i : Nat}
    (hi : i < l.length) (h : UInt64) : h ≤ l[i] ↔ i < l.countP (h ≤ ·) := by
  induction l generalizing i with
  | nil => cases hi
  | cons x l ih =>
    obtain ⟨hx, hl⟩ := List.pairwise_cons.mp hl
    by_cases hreach : h ≤ x
    · rw [List.countP_cons_of_pos (by simpa using hreach)]
      cases i with
      | zero => exact ⟨fun _ => Nat.succ_pos _, fun _ => hreach⟩
      | succ i =>
        rw [List.getElem_cons_succ, Nat.succ_lt_succ_iff]
        exact ih hl (Nat.lt_of_succ_lt_succ hi)
    · -- nothing after it reaches the height either
      have hnone : (x :: l).countP (h ≤ ·) = 0 := by
        rw [List.countP_eq_zero, List.forall_mem_cons]
        have hbelow : ∀ y ∈ l, ¬ h ≤ y := fun y hy hle =>
          hreach (UInt64.le_trans hle (hx y hy))
        simpa [hreach] using hbelow
      rw [hnone]
      refine ⟨fun hle => absurd ?_ hreach, fun hlt => absurd hlt (Nat.not_lt_zero i)⟩
      cases i with
      | zero => exact hle
      | succ i => exact UInt64.le_trans hle (hx _ (List.getElem_mem _))

namespace PeerSelector

variable {s : PeerSelector} {heads : List UInt64} {height : UInt64}

/-- A height is the greatest that enough of the heads reach. -/
structure IsAgreed (s : PeerSelector) (heads : List UInt64) (height : UInt64) : Prop where
  /-- Enough heads reach it. -/
  reached : s.minPeers ≤ heads.countP (height ≤ ·)
  /-- Enough heads reach no greater one. -/
  greatest : ∀ h, s.minPeers ≤ heads.countP (h ≤ ·) → h ≤ height

/-- There is one greatest height that enough heads reach. -/
theorem IsAgreed.unique {h h' : UInt64} (hagreed : s.IsAgreed heads h)
    (hagreed' : s.IsAgreed heads h') : h = h' :=
  UInt64.le_antisymm (hagreed'.greatest h hagreed.reached) (hagreed.greatest h' hagreed'.reached)

/-- The order of the heads does not matter. -/
theorem IsAgreed.perm {heads' : List UInt64} (h : s.IsAgreed heads height)
    (hperm : heads.Perm heads') : s.IsAgreed heads' height where
  reached := by
    rw [← hperm.countP_eq]
    exact h.reached
  greatest h' hreached := h.greatest h' (by rwa [hperm.countP_eq])

/-- With enough heads there is a greatest height that enough of them reach. -/
theorem exists_agreed (hpeers : 1 ≤ s.minPeers) (henough : s.minPeers ≤ heads.length) :
    ∃ height, s.agreed? heads = some height ∧ s.IsAgreed heads height := by
  have hsorted : (heads.mergeSort (· ≥ ·)).Pairwise (· ≥ ·) := by
    refine (List.pairwise_mergeSort ?_ ?_ heads).imp fun h => of_decide_eq_true h
    · intro a b c hab hbc
      exact decide_eq_true (UInt64.le_trans (of_decide_eq_true hbc) (of_decide_eq_true hab))
    · intro a b
      rcases UInt64.le_total b a with h | h <;> simp [h]
  have hperm := heads.mergeSort_perm (· ≥ ·)
  have hrank : s.minPeers - 1 < (heads.mergeSort (· ≥ ·)).length := by
    rw [hperm.length_eq]
    omega
  have hpicked (h : UInt64) :
      h ≤ (heads.mergeSort (· ≥ ·))[s.minPeers - 1] ↔ s.minPeers ≤ heads.countP (h ≤ ·) := by
    rw [le_getElem_iff_lt_countP hsorted hrank, hperm.countP_eq]
    omega
  refine ⟨(heads.mergeSort (· ≥ ·))[s.minPeers - 1], ?_, ?_, fun h => (hpicked h).mpr⟩
  · unfold agreed?
    rw [if_neg (by omega), List.getElem?_eq_getElem hrank]
  · exact (hpicked _).mp (UInt64.le_refl _)

/-- With too few heads there is nothing to agree on. -/
theorem agreed?_of_few (hfew : heads.length < s.minPeers) : s.agreed? heads = none := by
  unfold agreed?
  rw [if_neg (by omega), List.getElem?_eq_none]
  rw [(heads.mergeSort_perm (· ≥ ·)).length_eq]
  omega

/-- **The height that is picked is the greatest that enough of the heads reach.** -/
theorem agreed?_eq_some_iff (hpeers : 1 ≤ s.minPeers) :
    s.agreed? heads = some height ↔ s.IsAgreed heads height := by
  rcases Nat.lt_or_ge heads.length s.minPeers with hfew | henough
  · rw [agreed?_of_few hfew]
    refine ⟨nofun, fun h => ?_⟩
    exact absurd (Nat.le_trans h.reached List.countP_le_length) (Nat.not_le_of_lt hfew)
  · obtain ⟨picked, hpicked, hagreed⟩ := exists_agreed hpeers henough
    rw [hpicked, Option.some_inj]
    exact ⟨fun h => h ▸ hagreed, fun h => hagreed.unique h⟩

/-- **A minority does not carry the height further than one of the others is.** -/
theorem IsAgreed.le_of_minority {liars others : List UInt64} (h : s.IsAgreed heads height)
    (hheads : heads.Perm (liars ++ others)) (hminority : liars.length < s.minPeers) :
    ∃ head ∈ others, height ≤ head := by
  have hreached := h.reached
  rw [hheads.countP_eq, List.countP_append] at hreached
  have hliars : liars.countP (height ≤ ·) ≤ liars.length := List.countP_le_length
  have hothers : 0 < others.countP (height ≤ ·) := by omega
  obtain ⟨head, hmem, hle⟩ := List.countP_pos_iff.mp hothers
  exact ⟨head, hmem, of_decide_eq_true hle⟩

/-- Nothing is picked exactly if there are too few heads. -/
theorem agreed?_eq_none_iff (hpeers : 1 ≤ s.minPeers) :
    s.agreed? heads = none ↔ heads.length < s.minPeers := by
  refine ⟨fun h => Nat.lt_of_not_le fun henough => ?_, agreed?_of_few⟩
  obtain ⟨height, hpicked, -⟩ := exists_agreed hpeers henough
  rw [h] at hpicked
  cases hpicked

/-- **The number of the pivot block is the height less the distance**, without underflow, unless
that leaves nothing. -/
theorem pivotNumber_eq (s : PeerSelector) (height : UInt64) :
    (∀ n, s.pivotNumber height = .ok n ↔
        n.toNat + s.distance.toNat = height.toNat ∧ 0 < n.toNat) ∧
      (s.pivotNumber height = .error (.chainTooShort height s.distance) ↔
        height ≤ s.distance) := by
  unfold pivotNumber
  split
  next hfar =>
    have hfar' : s.distance.toNat < height.toNat := UInt64.lt_iff_toNat_lt.mp hfar
    have hsub : (height - s.distance).toNat = height.toNat - s.distance.toNat :=
      UInt64.toNat_sub_of_le _ _ (UInt64.le_iff_toNat_le.mpr (Nat.le_of_lt hfar'))
    refine ⟨fun n => ⟨?_, fun ⟨hn, _⟩ => ?_⟩, nofun, fun hle => ?_⟩
    · intro hn
      cases hn
      omega
    · rw [UInt64.toNat_inj.mp (show (height - s.distance).toNat = n.toNat by omega)]
    · exact absurd (UInt64.le_iff_toNat_le.mp hle) (by omega)
  next hnear =>
    have hnear' : height.toNat ≤ s.distance.toNat :=
      Nat.le_of_not_lt fun h => hnear (UInt64.lt_iff_toNat_lt.mpr h)
    refine ⟨fun n => ⟨nofun, fun ⟨hn, hpos⟩ => ?_⟩, fun _ => ?_, fun _ => rfl⟩
    · omega
    · exact UInt64.le_iff_toNat_le.mpr hnear'

/-! ### Looks at the heads -/

/-- A look at the heads is patient. -/
theorem look_eq_patient (s : PeerSelector) :
    s.look = Search.patient s.agreed? fun heads => .notEnoughPeers heads.length s.minPeers := by
  funext heads late
  unfold look Search.patient
  cases s.agreed? heads <;> rfl

/-- A search for the pivot block is one for the height, from which the number is taken then. -/
theorem look_peers_eq (s : PeerSelector) :
    (fun heads late => (Selector.peers s).look heads late) = fun heads late =>
      Search.mapLook (fun height => (height.bind s.pivotNumber).map .number)
        (s.look heads late) := by
  funext heads late
  dsimp only [Selector.look]
  cases s.look heads late <;> rfl

/-! ### Searches -/

open Search

/-- **The height that peers agree on is robust.** A search breaks down before its first poll exactly
if its deadline lies beyond the end of the clock.  Any other is decided by the first poll that sees
enough peers, or else by the first late one, and after so many polls at the latest.  What it comes
to is the greatest height that enough of the heads reach, in whatever order they are seen and
whatever a minority announces; the header that is asked for then lies the distance behind that, and
the chain is too short exactly if there is none. -/
theorem agreement_robust (s : PeerSelector) (hpeers : 1 ≤ s.minPeers) (interval : Duration)
    (hinterval : 0 < interval.nanoseconds) (start : Nat) :
    ((Selector.peers s).search? start = none ↔
        clockEnd ≤ start + s.timeout.nanoseconds) ∧
      (∀ search ∈ (Selector.peers s).search? start, ∀ polls : List (Poll (List UInt64)),
        (∀ result, search.run interval s.look polls = .settled result ↔
          search.Decides s.agreed? (fun heads => .notEnoughPeers heads.length s.minPeers) polls
            result) ∧
        (∀ result,
          search.run interval (fun heads late => (Selector.peers s).look heads late) polls =
              .settled result ↔
            ∃ height, search.run interval s.look polls = .settled height ∧
              result = (height.bind s.pivotNumber).map .number) ∧
        (search.Punctual interval polls →
          s.timeout.nanoseconds / interval.nanoseconds + 1 < polls.length →
            ∃ result, search.run interval s.look polls = .settled result)) ∧
      (∀ heads, s.agreed? heads = none ↔ heads.length < s.minPeers) ∧
      (∀ heads height, s.agreed? heads = some height ↔ s.IsAgreed heads height) ∧
      (∀ heads height, s.IsAgreed heads height →
        (∀ heads', heads.Perm heads' → s.IsAgreed heads' height) ∧
        ∀ liars others, heads.Perm (liars ++ others) → liars.length < s.minPeers →
          ∃ head ∈ others, height ≤ head) ∧
      ∀ height,
        (∀ n, s.pivotNumber height = .ok n ↔
          n.toNat + s.distance.toNat = height.toNat ∧ 0 < n.toNat) ∧
        (s.pivotNumber height = .error (.chainTooShort height s.distance) ↔
          height ≤ s.distance) := by
  obtain ⟨hnone, hsome⟩ := begin?_eq s.timeout start
  refine ⟨hnone, fun search hsearch polls => ⟨fun result => ?_, fun result => ?_,
    fun hpunctual hlength => ?_⟩, fun heads => agreed?_eq_none_iff hpeers,
    fun heads height => agreed?_eq_some_iff hpeers,
    fun heads height h => ⟨fun heads' => h.perm, fun liars others => h.le_of_minority⟩,
    s.pivotNumber_eq⟩
  · rw [look_eq_patient]
    exact run_patient_eq_settled_iff
  · rw [look_peers_eq]
    exact run_mapLook_eq_settled_iff
  · obtain rfl := hsome search hsearch
    rw [look_eq_patient]
    exact exists_run_eq_settled hinterval patient_late hpunctual hlength

/-- Five peers appear after one of them was alone; the fourth best of their heads is agreed on. -/
theorem agreement_robust_five :
    1 ≤ (⟨30, 4, .seconds 1⟩ : PeerSelector).minPeers ∧
      0 < (Duration.milliseconds 5).nanoseconds ∧
      (begin (.seconds 1) 0).run (.milliseconds 5)
          (fun heads late => (Selector.peers ⟨30, 4, .seconds 1⟩).look heads late)
          [⟨0, [1000]⟩, ⟨5000000, [1000, 990, 1200, 1010, 500]⟩] =
        .settled (.ok (.number 960)) := by
  obtain ⟨-, hsearch, hfew, hgreatest, -, -⟩ :=
    agreement_robust ⟨30, 4, .seconds 1⟩ (by decide) (.milliseconds 5) (by decide) 0
  obtain ⟨hheight, hquery, -⟩ := hsearch (begin (.seconds 1) 0) rfl
    [⟨0, [1000]⟩, ⟨5000000, [1000, 990, 1200, 1010, 500]⟩]
  have hwaits : ∀ q ∈ [(⟨0, [1000]⟩ : Poll (List UInt64))],
      agreed? ⟨30, 4, .seconds 1⟩ q.seen = none ∧ q.time < (begin (.seconds 1) 0).deadline := by
    intro q hq
    obtain rfl := List.mem_singleton.mp hq
    exact ⟨(hfew _).mpr (by decide), by decide⟩
  have hagreed : agreed? ⟨30, 4, .seconds 1⟩ [1000, 990, 1200, 1010, 500] = some 990 := by
    refine (hgreatest _ _).mpr ⟨by decide, fun h henough => UInt64.not_lt.mp fun hlt => ?_⟩
    -- Whatever lies above it is reached by the three greatest heads at most.
    have hfewer : [1000, 990, 1200, 1010, 500].countP (h ≤ ·) ≤
        ([1000, 990, 1200, 1010, 500] : List UInt64).countP (990 < ·) :=
      List.countP_mono_left fun head _ hreach =>
        decide_eq_true (UInt64.lt_of_lt_of_le hlt (of_decide_eq_true hreach))
    exact absurd (Nat.le_trans henough hfewer) (by decide)
  exact ⟨by decide, by decide,
    (hquery _).mpr ⟨.ok 990, (hheight _).mpr (.found hwaits hagreed), rfl⟩⟩

/-- With a deadline beyond the end of the clock not even the first poll takes place, however many
peers there are. -/
theorem timeless_search_undecided :
    ¬ ∀ (s : PeerSelector) (interval : Duration) (start : Nat) (p : Poll (List UInt64)),
      1 ≤ s.minPeers → 0 < interval.nanoseconds → s.minPeers ≤ p.seen.length →
        ∃ search ∈ (Selector.peers s).search? start, ∃ height,
          search.run interval s.look [p] = .settled (.ok height) := by
  intro hdecides
  obtain ⟨search, hsearch, -⟩ := hdecides ⟨50, 5, .seconds 9467280000000000000⟩
    Selector.defaultPollInterval 0 ⟨0, [1000, 1000, 1000, 1000, 1000]⟩ (by decide) (by decide)
    (by decide)
  have hnone : (Selector.peers ⟨50, 5, .seconds 9467280000000000000⟩).search? 0 = none :=
    (begin?_eq (.seconds 9467280000000000000) 0).1.mpr (by decide)
  rw [hnone] at hsearch
  cases hsearch

end PeerSelector

end ExecutionNode.Sync
