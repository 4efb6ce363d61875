import ExecutionNode.Proofs.Json.Notation
import ExecutionNode.Toml.Document

/-!
# Values on a line are read back

A text is written between quotes on one line, and the character behind a backslash, or behind a
number in its place, is the one that was meant (`doubleQuoted?_escaped`).  A natural number is
written with its digits.  Up to the end of the line they are no date, no time of day and no number
with a point, so they are read as the whole number (`word?_toDigits`), if it has 63 bits at most.
-/

namespace ExecutionNode.Toml

/-! ### Texts -/

/-- A character that cannot stand in a line has a number below this one. -/
theorem toNat_lt_of_not_isPlain {c : Char} (h : ¬ isPlain c = true) : c.toNat < 0x80 := by
  simp only [isPlain, Bool.or_eq_true, Bool.and_eq_true, decide_eq_true_eq, not_or, not_and,
    not_not] at h
  by_cases hlow : 0x20 ≤ c.toNat
  · rw [h.2 hlow]
    decide
  · omega

/-- A character is read back from two digits of its number behind two zeros. -/
theorem numbered?_digits {n : Nat} (h : n < 0x80) (rest : List Char) :
    numbered? 4 ('0' :: '0' :: Hex.digit (n / 16) :: Hex.digit (n % 16) :: rest) =
      some (Char.ofNat n, rest) := by
  have hhigh := Hex.digitValue?_digit (n / 16) (by omega)
  have hlow := Hex.digitValue?_digit (n % 16) (by omega)
  have hzero : Hex.digitValue? 16 '0' = some 0 := by decide
  have hvalue : n / 16 * 16 + n % 16 = n := Nat.div_add_mod' n 16
  have hvalid : n.isValidChar := .inl (by omega)
  simp [numbered?, hhigh, hlow, hzero, hvalue, hvalid]

/-- A character is read back from the way it is written. -/
theorem doubleQuoted?_escaped_append (c : Char) (bound : Nat) (rest : List Char) :
    doubleQuoted? (bound + 1) (escaped c ++ rest) =
      (doubleQuoted? bound rest).map fun (body, rest) => (c :: body, rest) := by
  have hmap : ∀ body : Option (List Char × List Char),
      (body >>= fun x => some (c :: x.1, x.2)) = body.map fun (body, rest) => (c :: body, rest) :=
    fun body => by cases body <;> rfl
  unfold escaped
  split_ifs with hquote hbackslash hplain
  · rw [hquote] at hmap ⊢
    exact hmap _
  · rw [hbackslash] at hmap ⊢
    exact hmap _
  · rw [List.singleton_append, doubleQuoted?, if_pos hplain]
    · exact hmap _
    · exact hquote
    · exact hbackslash
  · have hread := numbered?_digits (toNat_lt_of_not_isPlain hplain) rest
    rw [Char.ofNat_toNat] at hread
    simp only [List.cons_append, List.nil_append]
    rw [doubleQuoted?, escape?, hread]
    exact hmap _

/-- Escaped characters are read back up to the closing quote. -/
theorem doubleQuoted?_escaped {cs : List Char} {bound : Nat} (h : cs.length < bound)
    (rest : List Char) :
    doubleQuoted? bound (cs.flatMap escaped ++ '"' :: rest) = some (cs, rest) := by
  obtain ⟨bound, rfl⟩ : ∃ b, bound = b + 1 := ⟨bound - 1, by omega⟩
  induction cs generalizing bound with
  | nil => rfl
  | cons c cs ih =>
    obtain ⟨bound, rfl⟩ : ∃ b, bound = b + 1 := ⟨bound - 1, by simp at h; omega⟩
    rw [List.flatMap_cons, List.append_assoc, doubleQuoted?_escaped_append,
      ih bound (by simpa using h), Option.map_some]

/-- A character is written with at least one, and never with a bare quote in front. -/
theorem exists_escaped_eq (c : Char) : ∃ d ds, escaped c = d :: ds ∧ d ≠ '"' := by
  unfold escaped
  split_ifs with hquote
  · exact ⟨_, _, rfl, by decide⟩
  · exact ⟨_, _, rfl, by decide⟩
  · exact ⟨_, _, rfl, hquote⟩
  · exact ⟨_, _, rfl, by decide⟩

theorem length_le_length_escaped (cs : List Char) : cs.length ≤ (cs.flatMap escaped).length := by
  induction cs with
  | nil => exact Nat.le_refl _
  | cons c cs ih =>
    obtain ⟨d, ds, hescaped, -⟩ := exists_escaped_eq c
    simp only [List.flatMap_cons, hescaped, List.length_append, List.length_cons]
    omega

/-- Three quotes are needed to open a text over several lines. -/
theorem opensLines_eq_false {d : Char} (h : d ≠ '"') (rest : List Char) :
    opensLines ('"' :: d :: rest) = false := by
  cases rest with
  | nil => rfl
  | cons c rest => simp [opensLines, h]

/-- A text on a line does not open one over several lines. -/
theorem opensLines_quote (s : String) (rest : List Char) :
    opensLines (quote s ++ '\n' :: rest) = false := by
  rw [quote]
  cases s.toList with
  | nil => rfl
  | cons c cs =>
    obtain ⟨d, ds, hescaped, hquote⟩ := exists_escaped_eq c
    rw [List.flatMap_cons, hescaped]
    exact opensLines_eq_false hquote _

/-- **A text is read back.** -/
theorem scalar?_quote (s : String) (rest : List Char) :
    scalar? (quote s ++ '\n' :: rest) = some (.text s, '\n' :: rest) := by
  have hopen := opensLines_quote s rest
  have hquote : quote s ++ '\n' :: rest =
      '"' :: (s.toList.flatMap escaped ++ '"' :: '\n' :: rest) := by
    rw [quote, List.append_assoc]
    rfl
  have hlength := length_le_length_escaped s.toList
  rw [hquote] at hopen ⊢
  rw [scalar?, if_pos (.inl rfl), text?, hopen, if_neg Bool.false_ne_true, line?,
    doubleQuoted?_escaped (by rw [List.length_append]; omega), Option.map_some]
  dsimp only
  rw [String.ofList_toList]

/-! ### Numbers -/

theorem digitValue?_digitChar {d : Nat} (hd : d < 10) :
    Hex.digitValue? 10 d.digitChar = some d :=
  (Quantity.Digit.lower hd).digitValue?_eq (.inl rfl)

theorem digitChar_ne_zero : ∀ d < 10, d ≠ 0 → d.digitChar ≠ '0' := by decide

/-- The characters that mean something else in front of a value, or nothing. -/
def marks : List Char := ['+', '-', 'i', 'n', '"', '\'', '[', '\x7b', ' ', '\t']

theorem digitChar_notMem_marks : ∀ d < 10, d.digitChar ∉ marks := by decide

/-- A digit is none of them. -/
theorem digitChar_ne_mark {d : Nat} (hd : d < 10) {c : Char} (hc : c ∈ marks) :
    d.digitChar ≠ c := fun heq => digitChar_notMem_marks d hd (heq ▸ hc)

/-- The digits with which a number is written. -/
structure Digits (n d : Nat) (ds : List Nat) : Prop where
  /-- The first one. -/
  first : d < 10
  /-- The others. -/
  more : ∀ e ∈ ds, e < 10
  /-- Zero stands in front only if it stands alone. -/
  single : d = 0 → ds = []
  /-- They stand for the number. -/
  value : ofDigits 10 (d :: ds) = n
  /-- They are what is written. -/
  text : Nat.toDigits 10 n = d.digitChar :: ds.map Nat.digitChar

/-- Every number has its digits. -/
theorem exists_digits (n : Nat) : ∃ d ds, Digits n d ds := by
  induction n using Nat.strongRecOn with
  | _ n ih =>
    by_cases hlast : n < 10
    · refine ⟨n, [], hlast, nofun, fun _ => rfl, ?_, Nat.toDigits_of_lt_base hlast⟩
      rw [ofDigits, List.foldl_cons, List.foldl_nil, Nat.zero_mul, Nat.zero_add]
    · obtain ⟨d, ds, h⟩ := ih (n / 10) (Nat.div_lt_self (by omega) (by decide))
      have hquotient : n / 10 ≠ 0 := by omega
      have hvalue := h.value
      rw [ofDigits] at hvalue
      refine ⟨d, ds ++ [n % 10], h.first, ?_, fun hd => ?_, ?_, ?_⟩
      · intro e he
        rcases List.mem_append.mp he with he | he
        · exact h.more e he
        · rw [List.mem_singleton.mp he]
          exact Nat.mod_lt _ (by decide)
      · rw [h.single hd, hd] at hvalue
        exact absurd hvalue.symm hquotient
      · rw [ofDigits, ← List.cons_append, List.foldl_append, hvalue]
        exact Nat.div_add_mod' n 10
      · rw [Nat.toDigits_of_base_le (by decide) (by omega), h.text, List.map_append]
        rfl

/-- Digits are taken up to the end of the line. -/
theorem moreDigits_map {ds : List Nat} (hds : ∀ d ∈ ds, d < 10) (rest : List Char) :
    moreDigits 10 (ds.map Nat.digitChar ++ '\n' :: rest) = (ds, '\n' :: rest) := by
  induction ds with
  | nil => rfl
  | cons d ds ih =>
    obtain ⟨hd, hds⟩ := List.forall_mem_cons.mp hds
    have hmark := (digitChar_ne_marks d (by omega)).1
    rw [List.map_cons, List.cons_append, moreDigits, digitValue?_digitChar hd, ih hds]
    exact fun _ _ heq => absurd heq hmark

namespace Digits

variable {n d : Nat} {ds : List Nat}

/-- A number with the rest of its line and what follows. -/
theorem text_append (h : Digits n d ds) (rest : List Char) :
    Nat.toDigits 10 n ++ '\n' :: rest =
      d.digitChar :: (ds.map Nat.digitChar ++ '\n' :: rest) := by
  rw [h.text]
  rfl

/-- The digits of a number are taken. -/
theorem decimals? (h : Digits n d ds) (rest : List Char) :
    Toml.decimals? (d.digitChar :: (ds.map Nat.digitChar ++ '\n' :: rest)) =
      some (d :: ds, '\n' :: rest) := by
  by_cases hd : d = 0
  · rw [h.single hd, hd]
    rfl
  · have hne := digitChar_ne_zero d h.first hd
    rw [Toml.decimals?, digits?, digitValue?_digitChar h.first, moreDigits_map h.more]
    · rfl
    · exact fun _ heq => hne (List.head_eq_of_cons_eq heq)

/-- Digits carry no sign. -/
theorem sign (h : Digits n d ds) (rest : List Char) :
    Toml.sign (d.digitChar :: rest) = (false, d.digitChar :: rest) := by
  rw [Toml.sign]
  · exact fun _ heq => digitChar_ne_mark h.first (by decide) (List.head_eq_of_cons_eq heq)
  · exact fun _ heq => digitChar_ne_mark h.first (by decide) (List.head_eq_of_cons_eq heq)

/-- A whole number is read back if it has 63 bits at most. -/
theorem integer? (h : Digits n d ds) (hfits : n < integerCount) (rest : List Char) :
    Toml.integer? (d.digitChar :: (ds.map Nat.digitChar ++ '\n' :: rest)) =
      some ((n : Int), '\n' :: rest) := by
  have hbounds : fits (n : Int) = true := by
    simp only [fits, Bool.and_eq_true, decide_eq_true_eq]
    omega
  -- Behind a zero in front there is the end of the line, and no letter for another radix.
  have hradix : ∀ {c : Char} {cs : List Char}, c ≠ '\n' →
      d.digitChar :: (ds.map Nat.digitChar ++ '\n' :: rest) ≠ '0' :: c :: cs := by
    intro c cs hc heq
    by_cases hd : d = 0
    · rw [h.single hd, hd] at heq
      cases heq
      exact hc rfl
    · exact digitChar_ne_zero d h.first hd (List.head_eq_of_cons_eq heq)
  rw [Toml.integer?, h.sign]
  · dsimp only
    rw [h.decimals?, Option.bind_eq_bind, Option.bind_some]
    dsimp only
    rw [h.value, if_neg Bool.false_ne_true, Option.bind_eq_bind, Option.bind_some]
    exact if_pos hbounds
  · exact fun _ => hradix (by decide)
  · exact fun _ => hradix (by decide)
  · exact fun _ => hradix (by decide)

/-- A number of which nothing follows has no point and no exponent. -/
theorem real? (h : Digits n d ds) (rest : List Char) :
    Toml.real? (d.digitChar :: (ds.map Nat.digitChar ++ '\n' :: rest)) = none := by
  have hfraction : fraction? ('\n' :: rest) = some ([], '\n' :: rest) := rfl
  have hexponent : exponent? ('\n' :: rest) = some (0, '\n' :: rest) := rfl
  rw [Toml.real?, h.sign]
  dsimp only
  split
  next heq => exact absurd (List.head_eq_of_cons_eq heq) (digitChar_ne_mark h.first (by decide))
  next heq => exact absurd (List.head_eq_of_cons_eq heq) (digitChar_ne_mark h.first (by decide))
  next =>
    rw [h.decimals?, Option.bind_eq_bind, Option.bind_some, hfraction, Option.bind_eq_bind,
      Option.bind_some, hexponent, Option.bind_some, if_pos (.inl rfl)]

end Digits

/-! ### Dates and times of day -/

/-- What is read as digits has digits only. -/
theorem isSome_of_mapM {radix : Nat} {cs : List Char} {ds : List Nat}
    (h : cs.mapM (Hex.digitValue? radix) = some ds) :
    ∀ c ∈ cs, (Hex.digitValue? radix c).isSome = true := by
  induction cs generalizing ds with
  | nil => exact List.forall_mem_nil _
  | cons c cs ih =>
    simp only [List.mapM_cons, Option.bind_eq_bind, Option.bind_eq_some_iff] at h
    obtain ⟨d, hd, ds, hds, -⟩ := h
    exact List.forall_mem_cons.mpr ⟨Option.isSome_of_eq_some hd, ih hds⟩

/-- Behind digits on a line there are more of them or the end of the line, but no mark. -/
theorem mark?_of_bounded? {width low high value : Nat} {digits cs rest : List Char}
    (hdigits : ∀ c ∈ digits, c.isDigit = true)
    (h : bounded? width low high (digits ++ '\n' :: rest) = some (value, cs)) {mark : Char}
    (hmark : mark.isDigit = false ∧ mark ≠ '\n') : mark? mark cs = none := by
  simp only [bounded?, Option.bind_eq_bind, Option.bind_eq_some_iff] at h
  obtain ⟨ds, hds, h⟩ := h
  obtain rfl : (digits ++ '\n' :: rest).drop width = cs := by grind
  -- The end of the line is no digit, so the width lies within the digits.
  have hwidth : width ≤ digits.length := by
    by_contra hlong
    have hend : '\n' ∈ (digits ++ '\n' :: rest).take width := by
      rw [List.take_append]
      obtain ⟨more, hmore⟩ : ∃ k, width - digits.length = k + 1 :=
        ⟨width - digits.length - 1, by omega⟩
      simp [hmore]
    exact absurd (isSome_of_mapM hds _ hend) (by decide)
  rw [List.drop_append_of_le_length hwidth]
  cases hrest : digits.drop width with
  | nil => exact if_neg (Ne.symm hmark.2)
  | cons c cs =>
    refine if_neg ?_
    rintro rfl
    have hmem : c ∈ digits := List.mem_of_mem_drop (hrest ▸ List.mem_cons_self)
    exact absurd (hdigits _ hmem) (by simp [hmark.1])

/-- A number is no date and no time of day. -/
theorem moment?_of_digits {digits : List Char} (hdigits : ∀ c ∈ digits, c.isDigit = true)
    (rest : List Char) : moment? (digits ++ '\n' :: rest) = none := by
  have hdate : date? (digits ++ '\n' :: rest) = none := by
    unfold date?
    cases hyear : bounded? 4 0 9999 (digits ++ '\n' :: rest) with
    | none => rfl
    | some year =>
      have hmark : mark? '-' year.2 = none := mark?_of_bounded? hdigits hyear (by decide)
      simp [hmark]
  have htime : time? (digits ++ '\n' :: rest) = none := by
    unfold time? minutes?
    cases hhour : bounded? 2 0 23 (digits ++ '\n' :: rest) with
    | none => rfl
    | some hour =>
      have hmark : mark? ':' hour.2 = none := mark?_of_bounded? hdigits hhour (by decide)
      simp [hmark]
  rw [moment?, hdate, htime]
  rfl

/-! ### Values -/

/-- Values that can be written: whole numbers have 63 bits. -/
def Scalar.Fits : Scalar → Prop
  | .text _ => True
  | .natural n => n < integerCount

/-- **A number is read back.** -/
theorem word?_toDigits {n : Nat} (h : n < integerCount) (rest : List Char) :
    word? (Nat.toDigits 10 n ++ '\n' :: rest) = some (.integer n, '\n' :: rest) := by
  obtain ⟨d, ds, hdigits⟩ := exists_digits n
  have hall : ∀ c ∈ Nat.toDigits 10 n, c.isDigit = true := fun _ hc =>
    Nat.isDigit_of_mem_toDigits (by decide) (by decide) hc
  have hmoment := moment?_of_digits hall rest
  rw [hdigits.text_append] at hmoment ⊢
  rw [word?, hmoment, hdigits.real?, hdigits.integer? h]

/-- A value begins with a quote or a digit. -/
theorem Scalar.exists_write_eq (value : Scalar) :
    ∃ c cs, value.write = c :: cs ∧ c ∉ ['[', '\x7b', ' ', '\t'] := by
  cases value with
  | text s => exact ⟨_, _, rfl, by decide⟩
  | natural n =>
    obtain ⟨d, ds, hdigits⟩ := exists_digits n
    refine ⟨_, _, hdigits.text, fun hmem => ?_⟩
    exact digitChar_notMem_marks d hdigits.first
      (List.mem_append_right ['+', '-', 'i', 'n', '"', '\''] hmem)

/-- A value without parts is read back. -/
theorem Scalar.scalar?_write {value : Scalar} (h : value.Fits) (rest : List Char) :
    scalar? (value.write ++ '\n' :: rest) = some (value.value, '\n' :: rest) := by
  cases value with
  | text s => exact scalar?_quote s rest
  | natural n =>
    obtain ⟨d, ds, hdigits⟩ := exists_digits n
    have hquote : ¬ (d.digitChar = '"' ∨ d.digitChar = '\'') :=
      not_or.mpr ⟨digitChar_ne_mark hdigits.first (by decide),
        digitChar_ne_mark hdigits.first (by decide)⟩
    have hword := word?_toDigits h rest
    rw [Scalar.write, Scalar.value]
    rw [hdigits.text_append] at hword ⊢
    rw [scalar?, if_neg hquote, hword]

/-- A value without parts is read back where any value is looked for. -/
theorem Scalar.readValue?_write {value : Scalar} (h : value.Fits) (rest : List Char) :
    readValue? (value.write ++ '\n' :: rest) = some (value.value, '\n' :: rest) := by
  have hscalar := value.scalar?_write h rest
  obtain ⟨c, cs, hwrite, hmarks⟩ := value.exists_write_eq
  simp only [List.mem_cons, not_or] at hmarks
  rw [hwrite, List.cons_append] at hscalar ⊢
  rw [readValue?, value?, hscalar]
  · exact fun _ _ _ heq => absurd (List.head_eq_of_cons_eq heq) hmarks.1
  · exact fun _ _ _ heq => absurd (List.head_eq_of_cons_eq heq) hmarks.2.1

end ExecutionNode.Toml
