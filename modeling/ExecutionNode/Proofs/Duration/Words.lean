import ExecutionNode.Duration.Words
import ExecutionNode.Proofs.Json.Scalars

/-!
# Durations are read from their words

The words of a duration are counts of units, from years down to nanoseconds, of which those of zero
are left out.  Each count is read back with its unit (`readSpan?_chars`) and adds its nanoseconds
(`addWhole?_eq`), so a list of them adds up (`readSpans?_chars`), and the counts that are written
add up to the duration (`total_counts`).  On the way no sum is longer than the duration itself, so
every one of them is a duration as well.
-/

namespace ExecutionNode.Duration

/-! ### Counts of units -/

/-- A count of a unit as it stands in words. -/
structure Count where
  /-- How many. -/
  number : Nat
  /-- The name of the unit as it is written. -/
  name : String
  /-- The unit. -/
  unit : Span

/-- The nanoseconds of a unit. -/
def Span.nanoseconds (unit : Span) : Nat := unit.subsecond?.getD (unit.seconds * 1000000000)

namespace Count

/-- The text of a count. -/
def text (c : Count) : String := toString c.number ++ c.name

/-- Its characters. -/
def chars (c : Count) : List Char := Nat.toDigits 10 c.number ++ c.name.toList

/-- Its nanoseconds. -/
def nanoseconds (c : Count) : Nat := c.number * c.unit.nanoseconds

/-- The name is one of the unit, and parts of a second do not add up to one. -/
structure Plain (c : Count) : Prop where
  /-- The name has letters only. -/
  letters : c.name.toList.all isUnitLetter = true
  /-- It is not empty. -/
  named : c.name.toList ≠ []
  /-- It is known. -/
  known : Span.ofName? c.name = some c.unit
  /-- A part of a second is less than a second. -/
  small : c.unit.subsecond? ≠ none → c.nanoseconds < 1000000000

end Count

/-- The nanoseconds of counts. -/
def total (counts : List Count) : Nat := (counts.map Count.nanoseconds).sum

/-- A count, or nothing for zero. -/
def count (n : Nat) (name : String) (unit : Span) : List Count :=
  if n = 0 then [] else [⟨n, name, unit⟩]

/-- The name of a unit behind a number. -/
def plural (n : Nat) (name : String) : String := if n = 1 then name else name ++ "s"

/-- The counts of a duration. -/
def counts (d : Duration) : List Count :=
  let seconds := d.nanoseconds / 1000000000
  let nanos := d.nanoseconds % 1000000000
  let ofYear := seconds % Span.seconds .year
  let ofMonth := ofYear % Span.seconds .month
  let ofDay := ofMonth % Span.seconds .day
  let years := seconds / Span.seconds .year
  let months := ofYear / Span.seconds .month
  let days := ofMonth / Span.seconds .day
  count years (plural years "year") .year
    ++ count months (plural months "month") .month
    ++ count days (plural days "day") .day
    ++ count (ofDay / 3600) "h" .hour ++ count (ofDay % 3600 / 60) "m" .minute
    ++ count (ofDay % 60) "s" .second ++ count (nanos / 1000000) "ms" .millisecond
    ++ count (nanos / 1000 % 1000) "us" .microsecond ++ count (nanos % 1000) "ns" .nanosecond

/-- A unit that is shorter than a second is longer than nothing. -/
theorem Span.subsecond?_pos : ∀ {unit : Span} {size : Nat}, unit.subsecond? = some size → 0 < size
  | .nanosecond, _, rfl => by decide
  | .microsecond, _, rfl => by decide
  | .millisecond, _, rfl => by decide

/-- A unit that is not shorter than a second has at least one. -/
theorem Span.seconds_pos : ∀ {unit : Span}, unit.subsecond? = none → 0 < unit.seconds
  | .second, _ | .minute, _ | .hour, _ | .day, _ | .week, _ | .month, _ | .year, _ => by decide

theorem total_append (as bs : List Count) : total (as ++ bs) = total as + total bs := by
  rw [total, List.map_append, List.sum_append]
  rfl

theorem total_count (n : Nat) (name : String) (unit : Span) :
    total (count n name unit) = n * unit.nanoseconds := by
  unfold count
  split
  next h => rw [h, Nat.zero_mul]; rfl
  next => simp [total, Count.nanoseconds]

/-- **The counts of a duration add up to it.** -/
theorem total_counts (d : Duration) : total d.counts = d.nanoseconds := by
  simp only [counts, total_append, total_count, Span.nanoseconds, Span.subsecond?, Span.seconds,
    Option.getD_some, Option.getD_none]
  generalize d.nanoseconds = n
  have hseconds := Nat.div_add_mod n 1000000000
  generalize n / 1000000000 = seconds at *
  have hyear := Nat.div_add_mod seconds 31557600
  generalize seconds % 31557600 = ofYear at *
  have hmonth := Nat.div_add_mod ofYear 2630016
  generalize ofYear % 2630016 = ofMonth at *
  have hday := Nat.div_add_mod ofMonth 86400
  generalize ofMonth % 86400 = ofDay at *
  omega

theorem Count.toList_text (c : Count) : c.text.toList = c.chars := by
  rw [text, String.toList_append]
  exact congrArg (· ++ c.name.toList) Nat.toList_repr

theorem counted_eq (n : Nat) (name : String) (unit : Span) :
    counted n name = (count n (plural n name) unit).map Count.text := by
  unfold counted count plural
  split
  · rfl
  · split
    · simp [Count.text]
    · simp [Count.text, String.append_assoc]

theorem abbreviated_eq (n : Nat) (name : String) (unit : Span) :
    abbreviated n name = (count n name unit).map Count.text := by
  unfold abbreviated count
  split <;> rfl

/-- The counts that are written. No time at all is no seconds. -/
def written (d : Duration) : List Count :=
  if d.counts.isEmpty then [⟨0, "s", .second⟩] else d.counts

/-- The words of a duration are its counts with blanks between them. -/
theorem toList_words (d : Duration) :
    d.words.toList = [' '].intercalate (d.written.map Count.chars) := by
  have hwords : d.words = if (d.counts.map Count.text).isEmpty then "0s"
      else " ".intercalate (d.counts.map Count.text) := by
    simp only [words, counts, counted_eq _ "year" .year, counted_eq _ "month" .month,
      counted_eq _ "day" .day, abbreviated_eq _ "h" .hour, abbreviated_eq _ "m" .minute,
      abbreviated_eq _ "s" .second, abbreviated_eq _ "ms" .millisecond,
      abbreviated_eq _ "us" .microsecond, abbreviated_eq _ "ns" .nanosecond, List.map_append]
  rw [hwords, List.isEmpty_map, written]
  split
  · rfl
  · rw [String.toList_intercalate, List.map_map]
    congr 1
    exact List.map_congr_left fun c _ => c.toList_text

/-- **What is written adds up to the duration.** -/
theorem total_written (d : Duration) : total d.written = d.nanoseconds := by
  have htotal := total_counts d
  unfold written
  split
  next h =>
    rw [List.isEmpty_iff.mp h] at htotal
    exact htotal
  next => exact htotal

theorem written_ne_nil (d : Duration) : d.written ≠ [] := by
  unfold written
  split
  next => exact List.cons_ne_nil _ _
  next h => exact fun heq => h (List.isEmpty_iff.mpr heq)

/-- A count of a unit under one of its names is plain. -/
theorem plain_of_mem_count {n : Nat} {name : String} {unit : Span}
    (letters : name.toList.all isUnitLetter = true) (named : name.toList ≠ [])
    (known : Span.ofName? name = some unit)
    (small : unit.subsecond? ≠ none → n * unit.nanoseconds < 1000000000) :
    ∀ c ∈ count n name unit, c.Plain := by
  intro c hc
  unfold count at hc
  split at hc
  next => cases hc
  next =>
    obtain rfl := List.mem_singleton.mp hc
    exact ⟨letters, named, known, small⟩

/-- A unit from seconds up has no part of a second. -/
theorem plain_of_mem_whole {n : Nat} {name : String} {unit : Span}
    (letters : name.toList.all isUnitLetter = true) (named : name.toList ≠ [])
    (known : Span.ofName? name = some unit) (whole : unit.subsecond? = none) :
    ∀ c ∈ count n name unit, c.Plain :=
  plain_of_mem_count letters named known fun hpart => absurd whole hpart

/-- A unit from seconds up has no part of a second under either of its names. -/
theorem plain_of_mem_plural (n : Nat) {name : String} {unit : Span}
    (names : ∀ s ∈ [name, name ++ "s"], s.toList.all isUnitLetter = true ∧ s.toList ≠ [] ∧
      Span.ofName? s = some unit) (whole : unit.subsecond? = none) :
    ∀ c ∈ count n (plural n name) unit, c.Plain := by
  have hname : plural n name ∈ [name, name ++ "s"] := by
    unfold plural
    split <;> simp
  obtain ⟨letters, named, known⟩ := names _ hname
  exact plain_of_mem_whole letters named known whole

/-- **What is written can be read.** The units below a second share one second. -/
theorem plain_written (d : Duration) : ∀ c ∈ d.written, c.Plain := by
  unfold written
  split
  next =>
    intro c hc
    obtain rfl := List.mem_singleton.mp hc
    exact ⟨by decide, by decide, by decide, nofun⟩
  next =>
    have hnanos : d.nanoseconds % 1000000000 < 1000000000 := Nat.mod_lt _ (by decide)
    simp only [counts, List.forall_mem_append]
    refine ⟨⟨⟨⟨⟨⟨⟨⟨?_, ?_⟩, ?_⟩, ?_⟩, ?_⟩, ?_⟩, ?_⟩, ?_⟩, ?_⟩
    · exact plain_of_mem_plural _ (by decide) rfl
    · exact plain_of_mem_plural _ (by decide) rfl
    · exact plain_of_mem_plural _ (by decide) rfl
    · exact plain_of_mem_whole (by decide) (by decide) (by decide) rfl
    · exact plain_of_mem_whole (by decide) (by decide) (by decide) rfl
    · exact plain_of_mem_whole (by decide) (by decide) (by decide) rfl
    · refine plain_of_mem_count (by decide) (by decide) (by decide) fun _ => ?_
      show d.nanoseconds % 1000000000 / 1000000 * 1000000 < 1000000000
      omega
    · refine plain_of_mem_count (by decide) (by decide) (by decide) fun _ => ?_
      show d.nanoseconds % 1000000000 / 1000 % 1000 * 1000 < 1000000000
      omega
    · refine plain_of_mem_count (by decide) (by decide) (by decide) fun _ => ?_
      show d.nanoseconds % 1000000000 % 1000 * 1 < 1000000000
      omega

/-! ### Reading a count -/

/-- The digits of a number stand for it. -/
theorem digitsValue_toDigits (n : Nat) : digitsValue (Nat.toDigits 10 n) = n := by
  have h : Nat.ofDigitChars 10 (Nat.toDigits 10 n) 0 = n := Nat.ofDigitChars_ten_toDigits
  rw [Nat.ofDigitChars_eq_foldl] at h
  rw [digitsValue]
  simpa only [Nat.mul_comm] using h

/-- Digits are taken up to what is neither a digit nor a blank. -/
theorem spacedDigits_append {digits rest : List Char} (hdigits : ∀ c ∈ digits, c.isDigit = true)
    (hrest : ∀ c ∈ rest.head?, c.isDigit = false ∧ isBlank c = false) :
    spacedDigits (digits ++ rest) = (digits, rest) := by
  induction digits with
  | nil =>
    cases rest with
    | nil => rfl
    | cons c rest => simp [spacedDigits, hrest c rfl]
  | cons c digits ih =>
    obtain ⟨hc, hdigits⟩ := List.forall_mem_cons.mp hdigits
    rw [List.cons_append, spacedDigits, if_pos hc, ih hdigits]

/-- A letter of a unit is no digit, no blank and no point. -/
theorem isUnitLetter_spec {c : Char} (h : isUnitLetter c = true) :
    c.isDigit = false ∧ isBlank c = false ∧ c ≠ '.' := by
  have hcode : (65 ≤ c.toNat ∧ c.toNat ≤ 90) ∨ (97 ≤ c.toNat ∧ c.toNat ≤ 122) ∨
      c.toNat = 0xb5 := by
    change ((decide (65 ≤ c.val ∧ c.val ≤ 90) || decide (97 ≤ c.val) && decide (c.val ≤ 122)) ||
      decide (c = 'µ')) = true at h
    simp only [Bool.or_eq_true, Bool.and_eq_true, decide_eq_true_eq] at h
    rcases h with (⟨hlow, hhigh⟩ | ⟨hlow, hhigh⟩) | rfl
    · exact .inl ⟨hlow, hhigh⟩
    · exact .inr (.inl ⟨hlow, hhigh⟩)
    · exact .inr (.inr rfl)
  refine ⟨?_, ?_, ?_⟩
  · have hdigit : ¬ (48 ≤ c.toNat ∧ c.toNat ≤ 57) := by omega
    exact Bool.eq_false_iff.mpr fun heq => hdigit (by
      simp only [Char.isDigit, Bool.and_eq_true, decide_eq_true_eq] at heq
      exact heq)
  · simp only [isBlank, Bool.or_eq_false_iff, Bool.and_eq_false_iff, beq_eq_false_iff_ne,
      decide_eq_false_iff_not]
    omega
  · rintro rfl
    exact absurd hcode (by decide)

/-- Nothing in front of the text could continue the name of a unit. -/
def Parted (rest : List Char) : Prop := ∀ c ∈ rest.head?, isUnitLetter c = false

theorem word?_of_lt {n : Nat} (h : n < UInt64.size) : word? n = some n := if_pos h

/-- Parts of a second that are a word are added. -/
theorem add?_of_lt {d : Duration} {nanoseconds : Nat}
    (h : d.nanoseconds % 1000000000 + nanoseconds < UInt64.size) (seconds : Nat) :
    d.add? seconds nanoseconds =
      ofNanoseconds? ((d.nanoseconds / 1000000000 + seconds) * 1000000000 +
        (d.nanoseconds % 1000000000 + nanoseconds)) := by
  rw [add?, word?_of_lt h, Option.bind_eq_bind, Option.bind_some]

/-- Seconds and parts of a second are added as long as the sum is a duration. -/
theorem add?_eq (d : Duration) (seconds nanoseconds : Nat) (hsmall : nanoseconds < 1000000000)
    (htotal : d.nanoseconds + (seconds * 1000000000 + nanoseconds) < limit) :
    d.add? seconds nanoseconds =
      some ⟨d.nanoseconds + (seconds * 1000000000 + nanoseconds), htotal⟩ := by
  have hbelow : d.nanoseconds % 1000000000 + nanoseconds < UInt64.size :=
    calc d.nanoseconds % 1000000000 + nanoseconds
      < 1000000000 + 1000000000 := Nat.add_lt_add (Nat.mod_lt _ (by decide)) hsmall
      _ < UInt64.size := by decide
  have hsum : (d.nanoseconds / 1000000000 + seconds) * 1000000000 +
      (d.nanoseconds % 1000000000 + nanoseconds) =
      d.nanoseconds + (seconds * 1000000000 + nanoseconds) := by
    rw [Nat.add_mul, Nat.add_add_add_comm, Nat.div_add_mod']
  rw [add?_of_lt hbelow, hsum, ofNanoseconds?_of_lt htotal]

/-- The seconds of a duration are a word. -/
theorem lt_of_seconds_lt {seconds n : Nat} (h : n + seconds * 1000000000 < limit) :
    seconds < UInt64.size :=
  Nat.lt_of_mul_lt_mul_right (Nat.lt_of_le_of_lt (Nat.le_add_left _ n) h)

/-- Parts of a second are added. -/
theorem add?_nanoseconds {d : Duration} {n : Nat} (hsmall : n < 1000000000)
    (htotal : d.nanoseconds + n < limit) :
    (word? n >>= d.add? 0) = some ⟨d.nanoseconds + n, htotal⟩ := by
  have hadd := d.add?_eq 0 n hsmall (by rwa [Nat.zero_mul, Nat.zero_add])
  simp only [Nat.zero_mul, Nat.zero_add] at hadd
  rw [word?_of_lt (Nat.lt_trans hsmall (by decide)), Option.bind_eq_bind, Option.bind_some, hadd]

/-- Seconds are added. -/
theorem add?_seconds {d : Duration} {n : Nat}
    (htotal : d.nanoseconds + n * 1000000000 < limit) :
    (word? n >>= fun n => d.add? n 0) = some ⟨d.nanoseconds + n * 1000000000, htotal⟩ := by
  have hadd := d.add?_eq n 0 (by decide) (by rwa [Nat.add_zero])
  simp only [Nat.add_zero] at hadd
  rw [word?_of_lt (lt_of_seconds_lt htotal), Option.bind_eq_bind, Option.bind_some, hadd]

/-- A count adds its nanoseconds. -/
theorem addWhole?_eq {d : Duration} {c : Count} (hc : c.Plain)
    (htotal : d.nanoseconds + c.nanoseconds < limit) :
    d.addWhole? c.unit c.number = some ⟨d.nanoseconds + c.nanoseconds, htotal⟩ := by
  unfold addWhole?
  cases hsub : c.unit.subsecond? with
  | some size =>
    have hvalue : c.nanoseconds = c.number * size := by
      rw [Count.nanoseconds, Span.nanoseconds, hsub, Option.getD_some]
    have hsmall := hc.small (hsub ▸ Option.some_ne_none _)
    simp only [hvalue] at htotal hsmall ⊢
    exact add?_nanoseconds hsmall htotal
  | none =>
    have hvalue : c.nanoseconds = c.number * c.unit.seconds * 1000000000 := by
      rw [Count.nanoseconds, Span.nanoseconds, hsub, Option.getD_none, Nat.mul_assoc]
    simp only [hvalue] at htotal ⊢
    exact add?_seconds htotal

/-- A number of units that are a duration is a word. -/
theorem number_lt {c : Count} {n : Nat} (hc : c.Plain)
    (htotal : n + c.nanoseconds < limit) : c.number < UInt64.size := by
  cases hsub : c.unit.subsecond? with
  | some size =>
    have hsmall := hc.small (hsub ▸ Option.some_ne_none _)
    rw [Count.nanoseconds, Span.nanoseconds, hsub, Option.getD_some] at hsmall
    calc c.number ≤ c.number * size := Nat.le_mul_of_pos_right _ (Span.subsecond?_pos hsub)
      _ < 1000000000 := hsmall
      _ < UInt64.size := by decide
  | none =>
    rw [Count.nanoseconds, Span.nanoseconds, hsub, Option.getD_none, ← Nat.mul_assoc] at htotal
    exact Nat.lt_of_le_of_lt (Nat.le_mul_of_pos_right _ (Span.seconds_pos hsub))
      (lt_of_seconds_lt htotal)

/-- **A count is read** and adds its nanoseconds. -/
theorem readSpan?_chars {d : Duration} {c : Count} (hc : c.Plain)
    (htotal : d.nanoseconds + c.nanoseconds < limit) {rest : List Char} (hrest : Parted rest) :
    readSpan? d (c.chars ++ rest) = some (⟨d.nanoseconds + c.nanoseconds, htotal⟩, rest) := by
  obtain ⟨x, name, hname⟩ := List.exists_cons_of_ne_nil hc.named
  have hletters := List.all_eq_true.mp hc.letters
  obtain ⟨hdigit, hblank, hpoint⟩ := isUnitLetter_spec (hletters x (hname ▸ List.mem_cons_self))
  have hdigits : spacedDigits (Nat.toDigits 10 c.number ++ (c.name.toList ++ rest)) =
      (Nat.toDigits 10 c.number, c.name.toList ++ rest) := by
    refine spacedDigits_append
      (fun x hx => Nat.isDigit_of_mem_toDigits (by decide) (by decide) hx) ?_
    rw [hname]
    rintro _ ⟨⟩
    exact ⟨hdigit, hblank⟩
  have hfraction : ∀ cs, c.name.toList ++ rest ≠ '.' :: cs := by
    rw [hname]
    exact fun _ heq => hpoint (List.head_eq_of_cons_eq heq)
  obtain ⟨htake, hdrop⟩ := span_append hletters hrest
  rw [Count.chars, List.append_assoc, readSpan?, hdigits]
  dsimp only
  rw [digitsValue_toDigits, word?_of_lt (number_lt hc htotal), Option.bind_eq_bind,
    Option.bind_some]
  split
  next heq => exact absurd heq (hfraction _)
  next =>
    rw [Option.bind_eq_bind, Option.bind_some]
    dsimp only
    rw [htake, hdrop, String.ofList_toList, hc.known, Option.bind_eq_bind, Option.bind_some,
      addWhole?_eq hc htotal]
    rfl

/-! ### Reading the words -/

/-- A digit is no blank. -/
theorem isBlank_of_isDigit {c : Char} (h : c.isDigit = true) : isBlank c = false := by
  have hcode : 48 ≤ c.toNat ∧ c.toNat ≤ 57 := by
    simp only [Char.isDigit, Bool.and_eq_true, decide_eq_true_eq] at h
    exact h
  simp only [isBlank, Bool.or_eq_false_iff, Bool.and_eq_false_iff, beq_eq_false_iff_ne,
    decide_eq_false_iff_not]
  omega

/-- A count begins with a digit and has a name behind it. -/
theorem Count.Plain.exists_chars_eq {c : Count} (hc : c.Plain) :
    ∃ x y cs, c.chars = x :: y :: cs ∧ x.isDigit = true := by
  obtain ⟨x, digits, hdigits⟩ :=
    List.exists_cons_of_ne_nil (Nat.toDigits_ne_nil (b := 10) (n := c.number))
  obtain ⟨y, name, hname⟩ := List.exists_cons_of_ne_nil hc.named
  have hdigit : x.isDigit = true :=
    Nat.isDigit_of_mem_toDigits (by decide) (by decide) (hdigits ▸ List.mem_cons_self)
  rw [chars, hdigits, hname]
  cases digits with
  | nil => exact ⟨x, y, name, rfl, hdigit⟩
  | cons z digits => exact ⟨x, z, digits ++ y :: name, rfl, hdigit⟩

/-- Behind a count that is followed by another one there is a blank. -/
theorem intercalate_cons_cons (first second : List Char) (texts : List (List Char)) :
    [' '].intercalate (first :: second :: texts) =
      first ++ ' ' :: [' '].intercalate (second :: texts) := rfl

/-- Counts begin with a digit and have something behind it. -/
theorem exists_intercalate_eq {c : Count} (hc : c.Plain) (texts : List (List Char)) :
    ∃ x y cs, [' '].intercalate (c.chars :: texts) = x :: y :: cs ∧ x.isDigit = true := by
  obtain ⟨x, y, cs, hchars, hdigit⟩ := hc.exists_chars_eq
  cases texts with
  | nil => exact ⟨x, y, cs, List.intercalate_singleton.trans hchars, hdigit⟩
  | cons second texts =>
    refine ⟨x, y, cs ++ ' ' :: [' '].intercalate (second :: texts), ?_, hdigit⟩
    rw [intercalate_cons_cons, hchars]
    rfl

/-- A step reads the last count. -/
theorem readSpans?_of_end {d e : Duration} {fuel : Nat} {text : List Char} {x : Char}
    {cs : List Char} (hdigit : x.isDigit = true) (htext : text.dropWhile isBlank = x :: cs)
    (hspan : readSpan? d (x :: cs) = some (e, [])) : readSpans? (fuel + 1) d text = some e := by
  rw [readSpans?, htext]
  simp [hdigit, hspan]

/-- A step reads a count that is followed by more, which is read next. -/
theorem readSpans?_of_rest {d e : Duration} {fuel : Nat} {text : List Char} {x y : Char}
    {cs rest : List Char} (hdigit : x.isDigit = true) (htext : text.dropWhile isBlank = x :: cs)
    (hspan : readSpan? d (x :: cs) = some (e, y :: rest)) :
    readSpans? (fuel + 1) d text = readSpans? fuel e (y :: rest) := by
  rw [readSpans?, htext]
  simp [hdigit, hspan]

/-- **Counts are read one by one** and add up. It takes one step to read one of them. -/
theorem readSpans?_chars {cs : List Count} (hne : cs ≠ []) (hplain : ∀ c ∈ cs, c.Plain)
    {d : Duration} (htotal : d.nanoseconds + total cs < limit) {fuel : Nat}
    (hfuel : cs.length ≤ fuel) {text : List Char}
    (htext : text.dropWhile isBlank = [' '].intercalate (cs.map Count.chars)) :
    readSpans? fuel d text = some ⟨d.nanoseconds + total cs, htotal⟩ := by
  induction cs generalizing d fuel text with
  | nil => exact absurd rfl hne
  | cons c cs ih =>
    obtain ⟨fuel, rfl⟩ : ∃ f, fuel = f + 1 := ⟨fuel - 1, by simp at hfuel; omega⟩
    obtain ⟨hc, hplain⟩ := List.forall_mem_cons.mp hplain
    obtain ⟨x, y, tail, hchars, hdigit⟩ := hc.exists_chars_eq
    have hsum : d.nanoseconds + total (c :: cs) = d.nanoseconds + c.nanoseconds + total cs := by
      rw [Nat.add_assoc]
      rfl
    simp only [hsum] at htotal ⊢
    have hfirst : d.nanoseconds + c.nanoseconds < limit :=
      Nat.lt_of_le_of_lt (Nat.le_add_right _ _) htotal
    cases cs with
    | nil =>
      have hspan : readSpan? d (c.chars ++ []) = _ := readSpan?_chars hc hfirst nofun
      rw [List.append_nil, hchars] at hspan
      exact readSpans?_of_end hdigit (htext.trans (List.intercalate_singleton.trans hchars)) hspan
    | cons next cs =>
      have hspan :
          readSpan? d (c.chars ++ ' ' :: [' '].intercalate ((next :: cs).map Count.chars)) = _ :=
        readSpan?_chars hc hfirst (by rintro _ ⟨⟩; decide)
      rw [hchars] at hspan
      rw [List.map_cons, List.map_cons, intercalate_cons_cons, hchars] at htext
      rw [readSpans?_of_rest hdigit htext hspan]
      refine ih (List.cons_ne_nil _ _) hplain htotal (Nat.le_of_succ_le_succ hfuel) ?_
      obtain ⟨z, _, _, hnext, hz⟩ :=
        exists_intercalate_eq (hplain next List.mem_cons_self) (cs.map Count.chars)
      rw [List.dropWhile_cons_of_pos (by decide), List.map_cons, hnext,
        List.dropWhile_cons_of_neg (by simp [isBlank_of_isDigit hz])]

/-- There are no more counts than characters. -/
theorem length_le_length_intercalate {cs : List Count} (hplain : ∀ c ∈ cs, c.Plain) :
    cs.length ≤ ([' '].intercalate (cs.map Count.chars)).length := by
  induction cs with
  | nil => exact Nat.zero_le _
  | cons c cs ih =>
    obtain ⟨hc, hplain⟩ := List.forall_mem_cons.mp hplain
    obtain ⟨x, y, tail, hchars, -⟩ := hc.exists_chars_eq
    cases cs with
    | nil => simp [hchars]
    | cons next cs =>
      have hrest := ih hplain
      rw [List.map_cons, List.map_cons, intercalate_cons_cons, ← List.map_cons, hchars]
      simp only [List.length_cons, List.length_append] at hrest ⊢
      omega

/-- **A duration is read back from its words.** -/
theorem ofWords?_words (d : Duration) : ofWords? d.words = some d := by
  have hplain := d.plain_written
  obtain ⟨c, cs, hwritten⟩ := List.exists_cons_of_ne_nil d.written_ne_nil
  have hwords := d.toList_words
  obtain ⟨x, y, tail, htext, hdigit⟩ := exists_intercalate_eq
    (hplain c (hwritten ▸ List.mem_cons_self)) (cs.map Count.chars)
  rw [← List.map_cons, ← hwritten, ← hwords] at htext
  have hstart : d.words.toList.dropWhile isBlank = d.words.toList := by
    rw [htext, List.dropWhile_cons_of_neg (by simp [isBlank_of_isDigit hdigit])]
  -- There are at least two characters, so the words are not the `0` without a unit.
  have hzero : d.words ≠ "0" := by
    intro heq
    rw [heq] at htext
    cases htext
  have hempty : d.words.toList.isEmpty = false := by rw [htext]; rfl
  have hfuel : d.written.length ≤ d.words.length + 1 := by
    rw [← String.length_toList, hwords]
    exact Nat.le_succ_of_le (length_le_length_intercalate hplain)
  have htotal : zero.nanoseconds + total d.written = d.nanoseconds := by
    rw [total_written]
    exact Nat.zero_add _
  rw [ofWords?, if_neg hzero, hstart, hempty, if_neg Bool.false_ne_true,
    readSpans?_chars d.written_ne_nil hplain (htotal ▸ d.inRange) hfuel (hstart.trans hwords)]
  simp only [htotal]

end ExecutionNode.Duration
