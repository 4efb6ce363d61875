import ExecutionNode.Sync.Assembly

/-!
# Histories of a synchronizer

A history is what happened to a synchronizer, in order: it was started, stopped and started over,
one of its runs made a step, a forkchoice state was passed on, or someone operated on the sync
state.  Any order is possible, and the answers of the collaborators are arbitrary.  So a run that
was stopped may step at any later moment, between the steps of the runs that came after it.

* `Synchronizer.after` runs a history. It begins with a synchronizer as it was assembled, to which
  nothing happened yet (`Synchronizer.pristine_assemble`).
* `Happened` says that something took place at some moment of a history.
* `Logbook.only` are the calls of a kind, in their order; `Synchronizer.propagating` and
  `Synchronizer.pruning` tell from them what is switched on.
* `Truthful` histories are those in which block propagation, when it is asked whether it is on,
  says what was last done to it.  In `Orderly` steps no collaborator breaks down or claims that the
  run was stopped.
-/

namespace ExecutionNode.Sync

/-- What can happen to a synchronizer. -/
inductive Act where
  /-- It is started. -/
  | start (r : Replies)
  /-- It is stopped. -/
  | stop (r : Replies)
  /-- It starts over. -/
  | resync (r r' : Replies)
  /-- One of its runs makes a step. -/
  | step (r : Replies) (run : Nat) (event : Event)
  /-- A forkchoice state is passed on. -/
  | announce (state : ForkchoiceState)
  /-- Someone operates on the sync state. -/
  | operate (op : Operation)

namespace Synchronizer

/-- A synchronizer after something happened to it. If it cannot be started nothing happens. -/
def act (s : Synchronizer) : Act → Synchronizer
  | .start r =>
    match s.start r with
    | .ok t => t
    | .error _ => s
  | .stop r => s.stop r
  | .resync r r' => (s.resync r r').2
  | .step r run event => s.resume r run event
  | .announce state => s.announce state
  | .operate op => { s with book := s.book.perform op }

/-- A synchronizer after a history. -/
def after (s : Synchronizer) (h : List Act) : Synchronizer := h.foldl act s

variable (s : Synchronizer)

@[simp] theorem after_nil : s.after [] = s := rfl

@[simp] theorem after_cons (x : Act) (h : List Act) : s.after (x :: h) = (s.act x).after h := rfl

/-- A history goes on where its first part ended. -/
theorem after_append (past rest : List Act) : s.after (past ++ rest) = (s.after past).after rest :=
  List.foldl_append ..

/-- The last of a history happens to what came of the rest. -/
theorem after_concat (h : List Act) (x : Act) : s.after (h ++ [x]) = (s.after h).act x := by
  rw [after_append, after_cons, after_nil]

/-! ### Beginnings -/

/-- Nothing happened to a synchronizer yet. -/
structure Pristine (s : Synchronizer) : Prop where
  /-- No run is active. -/
  running : s.running = false
  /-- There was no run. -/
  runs : s.runs = []
  /-- Nothing was done. -/
  calls : s.book.calls = []
  /-- Missing nodes are not fetched on demand. -/
  fallbackEnabled : s.fallbackEnabled = false
  /-- No downloader for catching up was armed. -/
  catchUps : ∀ c ∈ s.catchUps, c.signal = {}
  /-- Full sync was not armed. -/
  fullSync : ∀ f, s.fullSync = some f → f.signal = {}

/-- What succeeds after something else needs that to succeed. -/
theorem exists_of_bind_eq_ok {ε α β : Type} {x : Except ε α} {f : α → Except ε β} {b : β}
    (h : x >>= f = .ok b) : ∃ a, x = .ok a ∧ f a = .ok b := by
  cases x with
  | error e => cases h
  | ok a => exact ⟨a, rfl, h⟩

/-- The first downloader that the settings describe. -/
def initialCatchUp (config : SyncConfig) : CatchUp where
  mode := config.mode
  checkpoint := if config.mode = .checkpoint then config.checkpoint else none
  resync := false

/-- What the settings and the collaborators make of a synchronizer. -/
def assembled (config : SyncConfig) (has : Collaborators) (isOver : Bool) (idle : Duration)
    (state : Option State) : Synchronizer where
  book := ⟨state.getD (.initial config.tolerance), []⟩
  propagates := has.propagation && !isOver
  prunes := has.pruner
  catchUps := if config.mode.isPivoted then [initialCatchUp config] else []
  fullSync := if isOver then none else some { maxTrailingPeers := config.maxTrailingPeers, idle }

/-- Where nothing is missing there is a first downloader exactly in a pivoted mode. -/
theorem firstCatchUp_eq {config : SyncConfig} {has : Collaborators} {catchUp : Option CatchUp}
    (h : firstCatchUp config has = .ok catchUp) :
    catchUp = if config.mode.isPivoted then some (initialCatchUp config) else none := by
  unfold firstCatchUp at h
  split at h
  next hpivoted =>
    obtain ⟨-, -, h⟩ := exists_of_bind_eq_ok h
    obtain ⟨-, -, h⟩ := exists_of_bind_eq_ok h
    obtain ⟨-, -, h⟩ := exists_of_bind_eq_ok h
    obtain ⟨-, -, h⟩ := exists_of_bind_eq_ok h
    cases h
    exact (if_pos hpivoted).symm
  next hpivoted =>
    cases h
    exact (if_neg hpivoted).symm

/-- **What a synchronizer is assembled as**, if nothing is missing. -/
theorem eq_assembled {s : Synchronizer} {config : SyncConfig} {has : Collaborators}
    {isOver : Bool} {idle : Duration} {state : Option State}
    (hs : assemble config has isOver idle state = .ok s) :
    s = assembled config has isOver idle state := by
  obtain ⟨-, -, hs⟩ := exists_of_bind_eq_ok hs
  obtain ⟨-, -, hs⟩ := exists_of_bind_eq_ok hs
  obtain ⟨catchUp, hcatchUp, hs⟩ := exists_of_bind_eq_ok hs
  obtain rfl := Except.ok.inj hs
  rw [firstCatchUp_eq hcatchUp]
  unfold assembled
  split <;> rfl

/-- The first downloader is as the settings describe it. -/
theorem mem_catchUps_assembled {config : SyncConfig} {has : Collaborators} {isOver : Bool}
    {idle : Duration} {state : Option State} {c : CatchUp}
    (hc : c ∈ (assembled config has isOver idle state).catchUps) : c = initialCatchUp config := by
  unfold assembled at hc
  dsimp only at hc
  split at hc
  · exact List.mem_singleton.mp hc
  · cases hc

/-- Full sync is as the settings describe it. -/
theorem fullSync_assembled {config : SyncConfig} {has : Collaborators} {isOver : Bool}
    {idle : Duration} {state : Option State} {f : FullSync}
    (hf : (assembled config has isOver idle state).fullSync = some f) :
    f = { maxTrailingPeers := config.maxTrailingPeers, idle } := by
  unfold assembled at hf
  dsimp only at hf
  split at hf
  · cases hf
  · exact (Option.some.inj hf).symm

/-- A synchronizer is assembled pristine, and with a downloader exactly in a pivoted mode. -/
theorem pristine_assemble {s : Synchronizer} {config : SyncConfig} {has : Collaborators}
    {isOver : Bool} {idle : Duration} {state : Option State}
    (hs : assemble config has isOver idle state = .ok s) :
    s.Pristine ∧ (s.catchUps ≠ [] ↔ config.mode.isPivoted = true) := by
  obtain rfl := eq_assembled hs
  refine ⟨⟨rfl, rfl, rfl, rfl, fun c hc => ?_, fun f hf => ?_⟩, ?_⟩
  · rw [mem_catchUps_assembled hc]
    rfl
  · rw [fullSync_assembled hf]
  · unfold assembled
    dsimp only
    split
    next hpivoted => simp [hpivoted]
    next hpivoted => simp [hpivoted]

end Synchronizer

/-- **What holds at first and is kept by whatever happens holds after every history**, also if only
some of it may happen. -/
theorem after_induction (P : Synchronizer → Prop) (Q : Act → Prop) {s : Synchronizer} (hs : P s)
    (hact : ∀ t x, P t → Q x → P (t.act x)) {h : List Act} (hh : ∀ x ∈ h, Q x) :
    P (s.after h) := by
  induction h generalizing s with
  | nil => exact hs
  | cons x h ih =>
    exact ih (hact s x hs (hh x List.mem_cons_self)) fun y hy => hh y (List.mem_cons_of_mem x hy)

/-! ### Moments of a history -/

/-- A list with one more at its end is cut at that one or where it could be cut before. -/
theorem concat_eq_append_cons {α : Type} {l past rest : List α} {a x : α} :
    l ++ [a] = past ++ x :: rest ↔
      (past = l ∧ x = a ∧ rest = []) ∨ ∃ rest', rest = rest' ++ [a] ∧ l = past ++ x :: rest' := by
  constructor
  · intro h
    rcases List.eq_nil_or_concat rest with rfl | ⟨rest, b, rfl⟩
    · obtain ⟨rfl, hlast⟩ := List.append_inj' h rfl
      exact .inl ⟨rfl, (List.head_eq_of_cons_eq hlast).symm, rfl⟩
    · rw [List.concat_eq_append, ← List.cons_append, ← List.append_assoc] at h
      obtain ⟨rfl, hlast⟩ := List.append_inj' h rfl
      exact .inr ⟨rest, by rw [hlast, List.concat_eq_append], rfl⟩
  · rintro (⟨rfl, rfl, rfl⟩ | ⟨rest, rfl, rfl⟩)
    · rfl
    · rw [List.append_assoc, List.cons_append]

/-- At some moment of a history something took place, which may depend on the synchronizer then. -/
def Happened (P : Synchronizer → Act → Prop) (s : Synchronizer) (h : List Act) : Prop :=
  ∃ past x rest, h = past ++ x :: rest ∧ P (s.after past) x

namespace Happened

variable {P Q : Synchronizer → Act → Prop} {s : Synchronizer} {h : List Act} {x : Act}

/-- What took place just now. -/
theorem now (hx : P (s.after h) x) : Happened P s (h ++ [x]) := ⟨h, x, [], rfl, hx⟩

/-- What took place has taken place ever after. -/
theorem later (hP : Happened P s h) (rest : List Act) : Happened P s (h ++ rest) := by
  obtain ⟨past, y, rest', rfl, hy⟩ := hP
  exact ⟨past, y, rest' ++ rest, by rw [List.append_assoc, List.cons_append], hy⟩

/-- What took place in a history took place with one of its acts. -/
theorem exists_mem (hP : Happened P s h) : ∃ x ∈ h, ∃ t, P t x := by
  obtain ⟨past, x, rest, rfl, hx⟩ := hP
  exact ⟨x, by simp, _, hx⟩

/-- What took place in a history took place before its last act or with it. -/
theorem concat_iff : Happened P s (h ++ [x]) ↔ Happened P s h ∨ P (s.after h) x := by
  constructor
  · rintro ⟨past, y, rest, heq, hy⟩
    rcases concat_eq_append_cons.mp heq with ⟨rfl, rfl, -⟩ | ⟨rest, -, rfl⟩
    · exact .inr hy
    · exact .inl ⟨past, y, rest, rfl, hy⟩
  · rintro (hold | hnow)
    · exact hold.later [x]
    · exact .now hnow

end Happened

/-! ### Calls of a kind -/

namespace Logbook

/-- The calls of a kind that were made, in their order. -/
def only (p : Call → Bool) (b : Logbook) : List Call := b.calls.filter p

variable {p : Call → Bool} (b : Logbook)

/-- A call is the last of its kind. -/
theorem only_call_of {c : Call} (h : p c = true) : (b.call c).only p = b.only p ++ [c] := by
  rw [only, call, List.filter_append, List.filter_cons_of_pos h, List.filter_nil, only]

/-- A call of another kind does not matter. -/
theorem only_call_of_not {c : Call} (h : p c = false) : (b.call c).only p = b.only p := by
  rw [only, call, List.filter_append, List.filter_cons_of_neg (by rw [h]; exact Bool.false_ne_true),
    List.filter_nil, List.append_nil, only]

/-- Whoever has the calls of a kind has those of a narrower one. -/
theorem only_of_only {q : Call → Bool} (h : ∀ c, q c = true → p c = true) :
    b.only q = (b.only p).filter q := by
  unfold only
  rw [List.filter_filter]
  refine List.filter_congr fun c _ => ?_
  cases hq : q c with
  | false => rfl
  | true => rw [h c hq]; rfl

/-- Operating on the sync state only gives notice. -/
theorem only_perform (h : ∀ n, p (.notify n) = false) (op : Operation) :
    (b.perform op).only p = b.only p := by
  have hnotices : ∀ notices : List Notice, (notices.map Call.notify).filter p = [] := by
    intro notices
    rw [List.filter_eq_nil_iff]
    intro c hc
    obtain ⟨n, -, rfl⟩ := List.mem_map.mp hc
    rw [h n]
    exact Bool.false_ne_true
  unfold perform only
  rw [List.filter_append, hnotices, List.append_nil]

/-- A change of the progress is a call, and gives notice besides. -/
theorem only_change (h : ∀ n, p (.notify n) = false) (c : Progress.Change) :
    (b.change c).only p = (b.call (.change c)).only p :=
  only_perform (b.call (.change c)) h (.change c)

end Logbook

namespace Synchronizer

variable {p : Call → Bool} (s : Synchronizer) (condition : Bool)

/-- A call that may be left out is the last of its kind where it is made. -/
theorem only_callIf_of {c : Call} (h : p c = true) :
    (s.callIf condition c).book.only p =
      if condition then s.book.only p ++ [c] else s.book.only p := by
  unfold callIf
  split
  · exact s.book.only_call_of h
  · rfl

/-- A call of another kind does not matter, made or left out. -/
theorem only_callIf_of_not {c : Call} (h : p c = false) :
    (s.callIf condition c).book.only p = s.book.only p := by
  unfold callIf
  split
  · exact s.book.only_call_of_not h
  · rfl

end Synchronizer

/-- The calls that switch block propagation. -/
def Call.switchesPropagation : Call → Bool
  | startPropagation => true
  | stopPropagation => true
  | _ => false

/-- The calls that switch the pruner. -/
def Call.switchesPruner : Call → Bool
  | startPruner => true
  | stopPruner => true
  | _ => false

/-- The calls that switch something on or off. -/
def Call.switches (c : Call) : Bool := c.switchesPropagation || c.switchesPruner

namespace Synchronizer

/-- Block propagation is on: it was switched on last. -/
def propagating (s : Synchronizer) : Bool :=
  (s.book.only Call.switchesPropagation).getLast? == some .startPropagation

/-- The pruner is on: it was switched on last. -/
def pruning (s : Synchronizer) : Bool :=
  (s.book.only Call.switchesPruner).getLast? == some .startPruner

end Synchronizer

/-! ### Truthful and orderly collaborators -/

/-- Who was waited for neither broke down nor claims that the run was stopped. -/
def Event.Orderly : Event → Prop
  | .chainImported (.error e) => e ≠ .stopped
  | .stateDownloaded (.error e) => e ≠ .stopped
  | .batchImported (.error e) => e ≠ .stopped
  | .panicked => False
  | _ => True

/-- Who answered at once neither broke down nor claims that the run was stopped. -/
def Replies.Orderly (r : Replies) : Prop :=
  r.importRefused ≠ some .panic ∧ r.importRefused ≠ some (.error .stopped)

/-- In a step no collaborator broke down or claims that the run was stopped. -/
def Act.Orderly : Act → Prop
  | .step r _ event => r.Orderly ∧ event.Orderly
  | _ => True

/-- When it is asked, block propagation says whether it is on. -/
def Act.Truthful (s : Synchronizer) : Act → Prop
  | .start r => s.propagates = true → r.propagating = s.propagating
  | .stop r => s.propagates = true → r.propagating = s.propagating
  | .resync r r' =>
    s.propagates = true →
      r.propagating = s.propagating ∧ r'.propagating = (s.stop r).propagating
  | _ => True

/-- Block propagation says whether it is on whenever it is asked in a history. -/
def Truthful (s : Synchronizer) : List Act → Prop
  | [] => True
  | x :: h => x.Truthful s ∧ Truthful (s.act x) h

/-- **What holds at first and is kept by whatever truthfully happens holds after every truthful
history.** -/
theorem truthful_induction (P : Synchronizer → Prop) {s : Synchronizer} (hs : P s)
    (hact : ∀ t x, P t → x.Truthful t → P (t.act x)) {h : List Act} (hh : Truthful s h) :
    P (s.after h) := by
  induction h generalizing s with
  | nil => exact hs
  | cons x h ih => exact ih (hact s x hs hh.1) hh.2

/-! ### The usual synchronizer -/

namespace Synchronizer

/-- Collaborators that agree to everything and keep no pivot block. -/
def agreeable (propagating : Bool) : Replies where
  propagating := propagating
  load := .ok none
  save := .ok ()
  delete := .ok ()
  anchor := .ok ()
  supportsFallback := true
  importRefused := none
  overAfterCatchUp := false
  overBeforeBatch := false
  overAtEnd := false

/-- A synchronizer as it is assembled where nothing is set. -/
def usual : Synchronizer where
  book := ⟨.initial 5, []⟩
  propagates := true
  prunes := true
  catchUps := [{ mode := .snap, checkpoint := none, resync := false }]
  fullSync := some { maxTrailingPeers := none, idle := FullSync.defaultIdle }

/-- Where nothing is set the usual synchronizer is assembled. -/
theorem assemble_usual : assemble {} {} false FullSync.defaultIdle none = .ok usual := rfl

end Synchronizer

end ExecutionNode.Sync
