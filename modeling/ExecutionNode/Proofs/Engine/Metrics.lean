import ExecutionNode.Engine.Metrics

/-!
# Reading a counter

The counts of a session are kept under names.  Every name begins with the stem of its kind, and no
stem is the beginning of another (`eq_of_stem_begins`), so no two counters share a name and no
counter has the name under which signals are counted.  Hence the count under the name of a counter
is how often the engine counted it (`metric_counter`), and where signals are counted, the count
under their name is how often the engine signalled (`metric_signal`).
-/

namespace ExecutionNode.Engine

/-- The count under a name, which is zero before the name was touched. -/
def metric (countsSignals : Bool) (calls : List Call) (name : String) : Nat :=
  ((counts countsSignals calls).lookup name).getD 0

/-- What is listed under the names of a list is found under each of them. -/
theorem lookup_map_pair {α : Type} (f : String → α) (names : List String) (name : String) :
    (names.map fun n => (n, f n)).lookup name = if name ∈ names then some (f name) else none := by
  induction names with
  | nil => rfl
  | cons first names ih =>
    rw [List.map_cons, List.lookup_cons, ih]
    by_cases h : name = first
    · simp [h]
    · simp [h, beq_false_of_ne h]

/-- The count under a name is how often a call adds to it. -/
theorem metric_eq_count (countsSignals : Bool) (calls : List Call) (name : String) :
    metric countsSignals calls name =
      (calls.filterMap (·.counterName? countsSignals)).count name := by
  rw [metric, counts, lookup_map_pair]
  split
  · rfl
  · rename_i h
    rw [List.mem_eraseDups] at h
    exact (List.count_eq_zero.mpr h).symm

/-! ### The names of counters -/

/-- Each method has a name of its own. -/
theorem Method.name_injective : Function.Injective Method.name := by
  rintro (v | v | v) (w | w | w) h <;> cases v <;> cases w <;>
    first | rfl | exact absurd h (by decide)

/-- What the name of a counter begins with. -/
def Counter.stem : Counter → String
  | newPayload _ => "engine.new_payload.status\x7bstatus="
  | newPayloadError => "engine.new_payload.internal_errors"
  | forkchoice _ => "engine.forkchoice_updated.status\x7bstatus="
  | latency _ => "engine.rpc."

/-- What the name of a counter ends with. -/
def Counter.label : Counter → String
  | newPayload verdict => verdict ++ "\x7d"
  | newPayloadError => ""
  | forkchoice verdict => verdict ++ "\x7d"
  | latency method => method.name

theorem Counter.name_eq (c : Counter) : c.name = c.stem ++ c.label := by
  cases c with
  | newPayload verdict => exact String.append_assoc
  | newPayloadError => rfl
  | forkchoice verdict => exact String.append_assoc
  | latency method => rfl

/-- What the names of counters and of signals begin with. -/
def stems : List String :=
  ["engine.new_payload.status\x7bstatus=", "engine.new_payload.internal_errors",
    "engine.forkchoice_updated.status\x7bstatus=", "engine.rpc.", "engine.calls"]

theorem Counter.stem_mem (c : Counter) : c.stem ∈ stems := by
  cases c <;> simp [stem, stems]

/-- No stem is the beginning of another one. -/
theorem eq_of_stem_begins : ∀ s ∈ stems, ∀ t ∈ stems, s.toList <+: t.toList → s = t := by decide

/-- Names with different stems are different. -/
theorem stem_eq_of_append_eq {s t : String} (hs : s ∈ stems) (ht : t ∈ stems) {a b : String}
    (h : s ++ a = t ++ b) : s = t := by
  have hchars := congrArg String.toList h
  rw [String.toList_append, String.toList_append] at hchars
  have hprefix : s.toList <+: t.toList ++ b.toList := ⟨a.toList, hchars⟩
  rcases List.prefix_or_prefix_of_prefix hprefix (List.prefix_append t.toList b.toList) with
    hst | hts
  · exact eq_of_stem_begins s hs t ht hst
  · exact (eq_of_stem_begins t ht s hs hts).symm

/-- Each counter has a name of its own. -/
theorem Counter.name_injective : Function.Injective Counter.name := by
  intro c d h
  rw [name_eq, name_eq] at h
  have hstem := stem_eq_of_append_eq c.stem_mem d.stem_mem h
  rw [hstem, String.append_right_inj] at h
  -- Different kinds have different stems, so only the diagonal is left.
  cases c <;> cases d <;> simp only [stem] at hstem
  all_goals first | exact absurd hstem (by decide) | skip
  · exact congrArg newPayload ((String.append_left_inj "\x7d").mp h)
  · rfl
  · exact congrArg forkchoice ((String.append_left_inj "\x7d").mp h)
  · exact congrArg latency (Method.name_injective h)

/-- No counter has the name under which signals are counted. -/
theorem Counter.name_ne_calls (c : Counter) : c.name ≠ "engine.calls" := by
  intro h
  rw [name_eq, ← String.append_empty (s := "engine.calls")] at h
  have hstem := stem_eq_of_append_eq c.stem_mem (by decide) h
  cases c <;> exact absurd hstem (by simp [stem])

/-! ### What the counts say -/

/-- The count of a counter is how often the engine counted it. -/
theorem metric_counter (countsSignals : Bool) (calls : List Call) (c : Counter) :
    metric countsSignals calls c.name = calls.count (.count c) := by
  rw [metric_eq_count, List.count_filterMap, List.count]
  refine List.countP_congr fun call _ => ?_
  cases call with
  | signal => cases countsSignals <;> simp [Call.counterName?, c.name_ne_calls.symm]
  | count d => simp [Call.counterName?, Counter.name_injective.eq_iff]
  | _ => simp [Call.counterName?]

/-- Where signals are counted, their count is how often the engine signalled. -/
theorem metric_signal (calls : List Call) :
    metric true calls "engine.calls" = calls.count .signal := by
  rw [metric_eq_count, List.count_filterMap, List.count]
  refine List.countP_congr fun call _ => ?_
  cases call with
  | count d => simp [Call.counterName?, d.name_ne_calls]
  | _ => simp [Call.counterName?]

end ExecutionNode.Engine
