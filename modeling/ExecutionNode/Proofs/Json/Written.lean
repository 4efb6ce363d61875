import ExecutionNode.Proofs.Json.Printed

/-!
# Every way of writing a value

A value is written in many ways: blanks may stand around its parts, a character of a string may be
escaped, and what nobody asks for may be any text of JSON.  `Written` relates a value to its texts
under the shape that it is read for, and `Written.reads` reads the value back from each of them.

* `Spelled` lists the ways to write a string that is read; `Passable` and `Numeric` are the strings
  and the numbers of JSON, which are passed over.
* `Padded` is a text with blanks around it, `Field` that of a field with its name.
* `items_separated` and `fields_separated` go from member to member.  A member takes one step and at
  least one character, so a bound of twice the length of the text is enough.

A part that is passed over stands as what the reader leaves of it: brackets and truth values stay,
names are empty, and all else is null.
-/

namespace ExecutionNode.Json

/-! ### Blanks -/

/-- Nothing but blanks. -/
def Blank (cs : List Char) : Prop := ∀ c ∈ cs, c = ' ' ∨ c = '\t' ∨ c = '\n' ∨ c = '\r'

theorem skipBlanks_append {blanks : List Char} (h : Blank blanks) (cs : List Char) :
    skipBlanks (blanks ++ cs) = skipBlanks cs := by
  induction blanks with
  | nil => rfl
  | cons c blanks ih =>
    obtain ⟨hc, h⟩ := List.forall_mem_cons.mp h
    rw [List.cons_append, skipBlanks, if_pos hc, ih h]

/-- Behind blanks stands what is no blank. -/
theorem Blank.skipBlanks_append_cons {blanks : List Char} (h : Blank blanks) {c : Char}
    (hc : ¬ (c = ' ' ∨ c = '\t' ∨ c = '\n' ∨ c = '\r')) (rest : List Char) :
    skipBlanks (blanks ++ c :: rest) = c :: rest := by
  rw [skipBlanks_append h, skipBlanks, if_neg hc]

theorem skipBlanks_skipBlanks (cs : List Char) : skipBlanks (skipBlanks cs) = skipBlanks cs := by
  fun_induction skipBlanks cs with
  | case1 c rest hblank ih => exact ih
  | case2 c rest hblank => rw [skipBlanks, if_neg hblank]
  | case3 => rfl

/-- Blanks do not continue a number. -/
theorem Blank.ends {blanks rest : List Char} (h : Blank blanks) (hrest : Ends rest) :
    Ends (blanks ++ rest) := by
  cases blanks with
  | nil => exact hrest
  | cons c blanks =>
    rintro _ ⟨⟩
    rcases h c List.mem_cons_self with rfl | rfl | rfl | rfl <;> decide

/-- A text with blanks around it. -/
structure Padded where
  /-- The blanks in front of it. -/
  before : List Char
  /-- The text. -/
  text : List Char
  /-- The blanks behind it. -/
  after : List Char
  /-- They are blanks. -/
  blank : Blank before ∧ Blank after

namespace Padded

/-- All of its characters. -/
def chars (p : Padded) : List Char := p.before ++ p.text ++ p.after

/-- A text without blanks around it. -/
def plain (text : List Char) : Padded := ⟨[], text, [], nofun, nofun⟩

theorem length_text_le (p : Padded) : p.text.length ≤ p.chars.length := by
  simp only [chars, List.length_append]
  omega

end Padded

/-! ### Strings -/

/-- The ways in which the characters of a string are written. -/
inductive Spelled : List Char → List Char → Prop where
  /-- None are left. -/
  | nil : Spelled [] []
  /-- A character that is written alone. -/
  | single {c : Char} {cs written text : List Char} (alone : Escaped c written)
      (rest : Spelled cs text) : Spelled (c :: cs) (written ++ text)
  /-- A character that is written as the two halves of a surrogate pair. -/
  | pair {a b c d a' b' c' d' : Char} {high low : Nat} {cs text : List Char}
      (first : fourDigits a b c d = some high) (isHigh : isHighHalf high = true)
      (second : fourDigits a' b' c' d' = some low) (isLow : isLowHalf low = true)
      (rest : Spelled cs text) :
      Spelled (surrogatePair high low :: cs)
        ('\\' :: 'u' :: a :: b :: c :: d :: '\\' :: 'u' :: a' :: b' :: c' :: d' :: text)

/-- The printed form is one of them. -/
theorem spelled_escape (cs : List Char) : Spelled cs (cs.flatMap escape) := by
  induction cs with
  | nil => exact .nil
  | cons c cs ih => exact .single (escaped_escape c) ih

/-- A string is read back from each way of writing it. -/
theorem Spelled.stringFrom {cs text : List Char} (h : Spelled cs text) (read rest : List Char) :
    stringFrom read (text ++ '"' :: rest) = .ok (String.ofList (read.reverse ++ cs), rest) := by
  induction h generalizing read with
  | nil => rw [List.nil_append, Json.stringFrom, List.append_nil]
  | single alone _ ih =>
    rw [List.append_assoc, alone.stringFrom, ih, List.reverse_cons, List.append_assoc,
      List.singleton_append]
  | pair first isHigh second isLow _ ih =>
    simp only [List.cons_append]
    rw [Json.stringFrom, first]
    simp only [isHigh, second, isLow, if_true]
    rw [ih, List.reverse_cons, List.append_assoc, List.singleton_append]

/-- A string of JSON, between its quotes. -/
inductive Passable : List Char → Prop where
  /-- None are left. -/
  | nil : Passable []
  /-- A character that is escaped by a letter. -/
  | letter {mark : Char} {text : List Char} (meaning : (simpleEscape? mark).isSome)
      (rest : Passable text) : Passable ('\\' :: mark :: text)
  /-- A number of four digits. -/
  | number {a b c d : Char} {text : List Char} (digits : (fourDigits a b c d).isSome)
      (rest : Passable text) : Passable ('\\' :: 'u' :: a :: b :: c :: d :: text)
  /-- A character that stands for itself. -/
  | plain {c : Char} {text : List Char} (quote : c ≠ '"') (backslash : c ≠ '\\')
      (printed : ¬ c.toNat < 0x20) (rest : Passable text) : Passable (c :: text)

/-- A string of JSON is passed over. -/
theorem Passable.skipString {text : List Char} (h : Passable text) (rest : List Char) :
    skipString (text ++ '"' :: rest) = some rest := by
  induction h with
  | nil => rw [List.nil_append, Json.skipString]
  | @letter mark text meaning _ ih =>
    have hmark : mark ≠ 'u' := by
      rintro rfl
      exact absurd meaning (by decide)
    rw [List.cons_append, List.cons_append, Json.skipString, if_pos meaning, ih]
    exact fun _ _ _ _ _ heq _ => hmark heq
  | number digits _ ih =>
    simp only [List.cons_append]
    rw [Json.skipString, if_pos digits, ih]
  | plain quote backslash printed _ ih =>
    rw [List.cons_append, Json.skipString, if_neg printed, ih]
    · exact quote
    · exact fun _ _ _ _ _ hc _ => backslash hc
    · exact fun _ _ hc _ => backslash hc

/-! ### Numbers -/

/-- Digits, and at least one. -/
def Digits (cs : List Char) : Prop := cs ≠ [] ∧ ∀ c ∈ cs, isDigit c = true

instance (cs : List Char) : Decidable (Digits cs) :=
  decidable_of_iff (cs ≠ [] ∧ cs.all isDigit = true) (by rw [Digits, List.all_eq_true])

/-- The part of a number in front of the point. -/
inductive Whole : List Char → Prop where
  /-- A zero stands alone. -/
  | zero : Whole ['0']
  /-- Digits that do not begin with zero. -/
  | digits {c : Char} {cs : List Char} (all : Digits (c :: cs)) (lead : c ≠ '0') : Whole (c :: cs)

/-- The point with the part of a number behind it. -/
inductive Fraction : List Char → Prop where
  /-- There is none. -/
  | none : Fraction []
  /-- The point and digits. -/
  | point {cs : List Char} (all : Digits cs) : Fraction ('.' :: cs)

/-- The exponent of a number. -/
inductive Power : List Char → Prop where
  /-- There is none. -/
  | none : Power []
  /-- The mark, a sign and digits. -/
  | mark {e : Char} {sign cs : List Char} (letter : e = 'e' ∨ e = 'E')
      (signed : sign = [] ∨ sign = ['+'] ∨ sign = ['-']) (all : Digits cs) :
      Power (e :: (sign ++ cs))

/-- A number of JSON. -/
inductive Numeric : List Char → Prop where
  /-- Its parts. -/
  | parts {sign whole fraction power : List Char} (signed : sign = [] ∨ sign = ['-'])
      (first : Whole whole) (second : Fraction fraction) (last : Power power) :
      Numeric (sign ++ (whole ++ (fraction ++ power)))

/-- Digits are taken from a text up to what is no digit. -/
theorem span_of_head {digits rest : List Char} (hdigits : ∀ c ∈ digits, isDigit c = true)
    (hrest : ∀ c ∈ rest.head?, isDigit c = false) :
    (digits ++ rest).takeWhile isDigit = digits ∧ (digits ++ rest).dropWhile isDigit = rest := by
  have hstop : rest.takeWhile isDigit = [] ∧ rest.dropWhile isDigit = rest := by
    cases rest with
    | nil => exact ⟨rfl, rfl⟩
    | cons c rest => simp [hrest c rfl]
  rw [List.takeWhile_append_of_pos hdigits, List.dropWhile_append_of_pos hdigits, hstop.1, hstop.2,
    List.append_nil]
  exact ⟨rfl, rfl⟩

/-- A digit is one of ten. -/
theorem exists_eq_digitChar {c : Char} (h : isDigit c = true) : ∃ d < 10, c = d.digitChar := by
  rw [isDigit, Bool.and_eq_true, decide_eq_true_eq, decide_eq_true_eq] at h
  obtain ⟨hlow, hhigh⟩ : 48 ≤ c.toNat ∧ c.toNat ≤ 57 := h
  refine ⟨c.toNat - 48, by omega, ?_⟩
  rw [← Char.ofNat_toNat c]
  generalize c.toNat = n at hlow hhigh
  interval_cases n <;> rfl

/-- A digit is no sign. -/
theorem ne_sign_of_isDigit {c : Char} (h : isDigit c = true) : c ≠ '+' ∧ c ≠ '-' :=
  ⟨by rintro rfl; exact absurd h (by decide), by rintro rfl; exact absurd h (by decide)⟩

/-- What may follow the digits in front of an exponent is no digit. -/
theorem Power.head_not_digit {power rest : List Char} (h : Power power) (hrest : Ends rest) :
    ∀ c ∈ (power ++ rest).head?, isDigit c = false := by
  cases h with
  | none => exact fun c hc => (hrest c hc).1
  | mark letter =>
    rintro _ ⟨⟩
    rcases letter with rfl | rfl <;> decide

/-- What may follow the digits in front of a point is no digit. -/
theorem Fraction.head_not_digit {fraction power rest : List Char} (h : Fraction fraction)
    (hpower : Power power) (hrest : Ends rest) :
    ∀ c ∈ (fraction ++ (power ++ rest)).head?, isDigit c = false := by
  cases h with
  | none => exact hpower.head_not_digit hrest
  | point =>
    rintro _ ⟨⟩
    decide

/-- The part in front of the point begins with a digit. -/
theorem Whole.exists_eq_cons {whole : List Char} (h : Whole whole) :
    ∃ c cs, whole = c :: cs ∧ isDigit c = true := by
  cases h with
  | zero => exact ⟨_, _, rfl, rfl⟩
  | digits all => exact ⟨_, _, rfl, all.2 _ List.mem_cons_self⟩

namespace NumberText

/-- Nothing is taken for an exponent of what ends a number. -/
theorem scanPower_of_ends (t : NumberText) {rest : List Char} (h : Ends rest) :
    t.scanPower rest = .ok (t, rest) := by
  cases rest with
  | nil => rfl
  | cons c rest =>
    obtain ⟨-, -, hlower, hupper⟩ := h c rfl
    unfold scanPower
    exact if_neg (not_or.mpr ⟨hlower, hupper⟩)

/-- An exponent is scanned. -/
theorem exists_scanPower {power rest : List Char} (h : Power power) (hrest : Ends rest)
    (t : NumberText) : ∃ t', t.scanPower (power ++ rest) = .ok (t', rest) := by
  cases h with
  | none => exact ⟨t, scanPower_of_ends t hrest⟩
  | @mark e sign cs letter signed all =>
    obtain ⟨hne, hdigits⟩ := all
    obtain ⟨htake, hdrop⟩ := span_of_head hdigits fun c hc => (hrest c hc).1
    have hsome : cs.isEmpty = false := by
      cases cs with
      | nil => exact absurd rfl hne
      | cons => rfl
    rw [List.cons_append, List.append_assoc]
    unfold scanPower
    rcases signed with rfl | rfl | rfl
    · obtain ⟨c, cs, rfl⟩ := List.exists_cons_of_ne_nil hne
      obtain ⟨hplus, hminus⟩ := ne_sign_of_isDigit (hdigits c List.mem_cons_self)
      rw [List.cons_append] at htake hdrop
      simp only [List.nil_append, List.cons_append, if_pos letter]
      split
      next heq => exact absurd (List.head_eq_of_cons_eq heq) hplus
      next heq => exact absurd (List.head_eq_of_cons_eq heq) hminus
      next =>
        simp only [htake, hdrop, hsome]
        exact ⟨_, rfl⟩
    · simp only [List.singleton_append, if_pos letter, htake, hdrop, hsome]
      exact ⟨_, rfl⟩
    · simp only [List.singleton_append, if_pos letter, htake, hdrop, hsome]
      exact ⟨_, rfl⟩

/-- What stands behind the digits in front of the point is scanned. -/
theorem exists_scanRest {fraction power rest : List Char} (h : Fraction fraction)
    (hpower : Power power) (hrest : Ends rest) (t : NumberText) :
    ∃ t', t.scanRest (fraction ++ (power ++ rest)) = .ok (t', rest) := by
  cases h with
  | none =>
    have hpoint : ∀ cs, power ++ rest ≠ '.' :: cs := by
      intro cs heq
      cases hpower with
      | none => exact (hrest '.' (by rw [← List.nil_append rest, heq]; rfl)).2.1 rfl
      | mark letter =>
        rcases letter with rfl | rfl <;> exact absurd (List.head_eq_of_cons_eq heq) (by decide)
    rw [List.nil_append, scanRest]
    · exact exists_scanPower hpower hrest t
    · exact hpoint
  | @point cs all =>
    obtain ⟨htake, hdrop⟩ := span_of_head all.2 (hpower.head_not_digit hrest)
    have hsome : cs.isEmpty = false := by
      cases cs with
      | nil => exact absurd rfl all.1
      | cons => rfl
    rw [List.cons_append, scanRest]
    simp only [htake, hdrop, hsome]
    exact exists_scanPower hpower hrest _

/-- A number is scanned behind its sign. -/
theorem exists_scanUnsigned {whole fraction power rest : List Char} (h : Whole whole)
    (hfraction : Fraction fraction) (hpower : Power power) (hrest : Ends rest) (isNegative : Bool) :
    ∃ t, scanUnsigned isNegative (whole ++ (fraction ++ (power ++ rest))) = .ok (t, rest) := by
  have hhead := hfraction.head_not_digit hpower hrest
  cases h with
  | zero =>
    have hnext : (fraction ++ (power ++ rest)).head?.any isDigit = false := by
      cases hcs : (fraction ++ (power ++ rest)).head? with
      | none => rfl
      | some c => exact hhead c (hcs ▸ rfl)
    rw [List.singleton_append, scanUnsigned, hnext]
    exact exists_scanRest hfraction hpower hrest _
  | @digits c cs all lead =>
    obtain ⟨htake, hdrop⟩ := span_of_head all.2 hhead
    rw [List.cons_append] at htake hdrop ⊢
    rw [scanUnsigned]
    · rw [htake, hdrop]
      exact exists_scanRest hfraction hpower hrest _
    · exact fun _ heq => lead (List.head_eq_of_cons_eq heq)

end NumberText

/-- A number of JSON begins with a digit or a minus sign. -/
theorem Numeric.exists_eq_cons {text : List Char} (h : Numeric text) :
    ∃ c cs, text = c :: cs ∧ (c = '-' ∨ isDigit c = true) := by
  cases h with
  | parts signed first =>
    rcases signed with rfl | rfl
    · obtain ⟨c, cs, rfl, hdigit⟩ := first.exists_eq_cons
      exact ⟨_, _, rfl, .inr hdigit⟩
    · exact ⟨_, _, rfl, .inl rfl⟩

/-- A number of JSON is passed over. -/
theorem Numeric.skipNumber {text rest : List Char} (h : Numeric text) (hrest : Ends rest) :
    skipNumber (text ++ rest) = some rest := by
  cases h with
  | @parts sign whole fraction power signed first second last =>
    simp only [List.append_assoc]
    have hscan : ∃ t, NumberText.scan (sign ++ (whole ++ (fraction ++ (power ++ rest)))) =
        .ok (t, rest) := by
      rcases signed with rfl | rfl
      · have hscan := NumberText.exists_scanUnsigned first second last hrest false
        obtain ⟨c, cs, rfl, hdigit⟩ := first.exists_eq_cons
        rw [List.nil_append, NumberText.scan]
        · exact hscan
        · exact fun _ heq => (ne_sign_of_isDigit hdigit).2 (List.head_eq_of_cons_eq heq)
      · exact NumberText.exists_scanUnsigned first second last hrest true
    obtain ⟨t, hscan⟩ := hscan
    rw [Json.skipNumber, hscan]

/-! ### Values -/

/-- How deep brackets may still be nested inside those of a part. Those of a part that is passed
over are not counted. -/
inductive Inside : Shape → Nat → Nat → Prop where
  /-- The part is asked for. -/
  | kept {shape : Shape} {depth : Nat} (asked : shape.isSkipped = false) :
      Inside shape (depth + 1) depth
  /-- The part is passed over. -/
  | skipped {depth : Nat} : Inside .skipped depth depth

/-- A member of an array with its text. -/
structure Item where
  /-- The text of the member. -/
  content : Padded
  /-- The member. -/
  value : Json

/-- A field of an object with its text. -/
structure Field where
  /-- The text of the name. -/
  label : Padded
  /-- The text of the value. -/
  content : Padded
  /-- The name. -/
  name : String
  /-- The value. -/
  value : Json

/-- The characters of a field. -/
def Field.chars (field : Field) : List Char := field.label.chars ++ ':' :: field.content.chars

/-- Texts with commas between them. -/
def separated : List (List Char) → List Char
  | [] => []
  | [text] => text
  | text :: texts => text ++ ',' :: separated texts

/-- How the name of a field is written. A name that is passed over stands as the empty one. -/
inductive Named (shape : Shape) : String → List Char → Prop where
  /-- The name is read. -/
  | read {name : String} {text : List Char} (asked : shape.isSkipped = false)
      (spelled : Spelled name.toList text) : Named shape name ('"' :: (text ++ ['"']))
  /-- The name is passed over. -/
  | passed {text : List Char} (skipped : shape.isSkipped = true) (passable : Passable text) :
      Named shape "" ('"' :: (text ++ ['"']))

/-- The texts of a value that is read under a shape with so many brackets inside each other. -/
inductive Written : Nat → Shape → Json → List Char → Prop where
  /-- The null value. -/
  | null {depth : Nat} {shape : Shape} : Written depth shape .null "null".toList
  /-- A truth value. -/
  | bool {depth : Nat} {shape : Shape} {b : Bool} (asked : shape ≠ .verbatim) :
      Written depth shape (.bool b) (print (.bool b))
  /-- A word, with digits only. -/
  | word {depth : Nat} {shape : Shape} {n : Nat} (asked : shape.isSkipped = false)
      (bounded : n < UInt64.size) : Written depth shape (.num (.natural n)) (Nat.toDigits 10 n)
  /-- A number that is passed over. -/
  | number {depth : Nat} {text : List Char} (numeric : Numeric text) :
      Written depth .skipped .null text
  /-- A string. -/
  | str {depth : Nat} {shape : Shape} {s : String} {text : List Char}
      (asked : shape.isSkipped = false) (spelled : Spelled s.toList text) :
      Written depth shape (.str s) ('"' :: (text ++ ['"']))
  /-- A string that is passed over. -/
  | string {depth : Nat} {text : List Char} (passable : Passable text) :
      Written depth .skipped .null ('"' :: (text ++ ['"']))
  /-- An array without members. -/
  | emptyArr {depth inner : Nat} {shape : Shape} {blanks : List Char}
      (inside : Inside shape depth inner) (notOctets : ∀ n, shape ≠ .octets n)
      (blank : Blank blanks) : Written depth shape (.arr []) ('[' :: (blanks ++ [']']))
  /-- An array. -/
  | arr {depth inner : Nat} {shape : Shape} {items : List Item} (inside : Inside shape depth inner)
      (notOctets : ∀ n, shape ≠ .octets n) (nonempty : items ≠ [])
      (members : ∀ i item, items[i]? = some item →
        Written inner (shape.item i) item.value item.content.text) :
      Written depth shape (.arr (items.map (·.value)))
        ('[' :: (separated (items.map (·.content.chars)) ++ [']']))
  /-- An object without fields. -/
  | emptyObj {depth inner : Nat} {shape : Shape} {blanks : List Char}
      (inside : Inside shape depth inner) (blank : Blank blanks) :
      Written depth shape (.obj []) ('\x7b' :: (blanks ++ ['\x7d']))
  /-- An object. -/
  | obj {depth inner : Nat} {shape : Shape} {fields : List Field}
      (inside : Inside shape depth inner) (nonempty : fields ≠ [])
      (names : ∀ field ∈ fields, Named shape field.name field.label.text)
      (members : ∀ field ∈ fields,
        Written inner (shape.field field.name) field.value field.content.text) :
      Written depth shape (.obj (fields.map fun field => (field.name, field.value)))
        ('\x7b' :: (separated (fields.map Field.chars) ++ ['\x7d']))

section values

variable {bound depth inner : Nat} {shape : Shape}

/-- The printed form of a string is one of its texts. -/
theorem written_quoted (asked : shape.isSkipped = false) (s : String) :
    Written depth shape (.str s) (quoted s) := .str asked (spelled_escape s.toList)

/-- The printed form of a name is one of its texts. -/
theorem named_quoted (asked : shape.isSkipped = false) (name : String) :
    Named shape name (quoted name) := .read asked (spelled_escape name.toList)

/-- Blanks in front of a value do not matter. -/
theorem value_skipBlanks (cs : List Char) :
    value bound depth shape (skipBlanks cs) = value bound depth shape cs := by
  cases bound with
  | zero =>
    unfold value
    rfl
  | succ bound =>
    unfold value
    rw [skipBlanks_skipBlanks]

theorem items_skipBlanks (position : Nat) (before : List Json) (cs : List Char) :
    items bound depth shape position before (skipBlanks cs) =
      items bound depth shape position before cs := by
  cases bound with
  | zero => rw [items, items]
  | succ bound => rw [items, items, value_skipBlanks]

theorem fields_skipBlanks (before : List (String × Json)) (cs : List Char) :
    fields bound depth shape before (skipBlanks cs) = fields bound depth shape before cs := by
  cases bound with
  | zero => rw [fields, fields]
  | succ bound => rw [fields, fields, skipBlanks_skipBlanks]

theorem value_bool (hasked : shape ≠ .verbatim) (b : Bool) (rest : List Char) :
    value (bound + 1) depth shape (print (.bool b) ++ rest) = some (.bool b, rest) := by
  cases shape with
  | verbatim => exact absurd rfl hasked
  | _ => cases b <;> unfold value <;> rfl

/-- A string that is passed over. -/
theorem value_passable (rest : List Char) :
    value (bound + 1) depth .skipped ('"' :: rest) =
      (skipString rest).map fun rest => (.null, rest) := by
  unfold value
  rfl

/-- A number that is passed over. -/
theorem value_numeric {c : Char} (h : c = '-' ∨ isDigit c = true) (rest : List Char) :
    value (bound + 1) depth .skipped (c :: rest) =
      (skipNumber (c :: rest)).map fun rest => (.null, rest) := by
  rcases h with rfl | h
  · unfold value
    rfl
  · obtain ⟨d, hd, rfl⟩ := exists_eq_digitChar h
    interval_cases d <;> unfold value <;> rfl

/-- The opening bracket of an array. -/
theorem value_opens_arr (h : Inside shape depth inner) (hoctets : ∀ n, shape ≠ .octets n)
    (rest : List Char) :
    value (bound + 1) depth shape ('[' :: rest) =
      match skipBlanks rest with
      | ']' :: rest => some (.arr [], rest)
      | rest => items bound inner shape 0 [] rest := by
  cases h with
  | kept asked => exact value_bracket asked hoctets rest
  | skipped =>
    unfold value
    rfl

/-- The opening bracket of an object. -/
theorem value_opens_obj (h : Inside shape depth inner) (rest : List Char) :
    value (bound + 1) depth shape ('\x7b' :: rest) =
      match skipBlanks rest with
      | '\x7d' :: rest => some (.obj [], rest)
      | rest => fields bound inner shape [] rest := by
  cases h with
  | kept asked => exact value_brace asked rest
  | skipped =>
    unfold value
    rfl

/-! ### Reading them back -/

/-- A value is read from a text, whatever ends it. -/
def Reads (depth : Nat) (shape : Shape) (j : Json) (text : List Char) : Prop :=
  ∀ bound, 2 * text.length ≤ bound → ∀ rest, Ends rest →
    value bound depth shape (text ++ rest) = some (j, rest)

/-- A value is read with the blanks in front of it; those behind it are left. -/
theorem Reads.padded {j : Json} {p : Padded} (h : Reads depth shape j p.text)
    (hbound : 2 * p.chars.length ≤ bound) {rest : List Char} (hrest : Ends rest) :
    value bound depth shape (p.chars ++ rest) = some (j, p.after ++ rest) := by
  have hlength := p.length_text_le
  rw [← value_skipBlanks, Padded.chars, List.append_assoc, List.append_assoc,
    skipBlanks_append p.blank.1, value_skipBlanks]
  exact h bound (by omega) _ (p.blank.2.ends hrest)

/-- A text that is not empty and begins neither with a blank nor with the end of an array. -/
def Opened (text : List Char) : Prop := ∃ c cs, text = c :: cs ∧ Opens c

theorem Written.opened {j : Json} {text : List Char} (h : Written depth shape j text) :
    Opened text := by
  cases h with
  | null => exact ⟨_, _, rfl, by decide⟩
  | @bool _ _ b => cases b <;> exact ⟨_, _, rfl, by decide⟩
  | @word _ _ n =>
    obtain ⟨d, hd, -, tail, htail⟩ := exists_toDigits_eq_cons (by decide : 1 < 10) n
    exact ⟨_, _, htail, by interval_cases d <;> decide⟩
  | number numeric =>
    obtain ⟨c, cs, rfl, hc⟩ := numeric.exists_eq_cons
    refine ⟨_, _, rfl, ?_⟩
    rcases hc with rfl | hc
    · decide
    · obtain ⟨d, hd, rfl⟩ := exists_eq_digitChar hc
      interval_cases d <;> decide
  | str => exact ⟨_, _, rfl, by decide⟩
  | string => exact ⟨_, _, rfl, by decide⟩
  | emptyArr => exact ⟨_, _, rfl, by decide⟩
  | arr => exact ⟨_, _, rfl, by decide⟩
  | emptyObj => exact ⟨_, _, rfl, by decide⟩
  | obj => exact ⟨_, _, rfl, by decide⟩

/-- A member of an array with the comma behind it. -/
theorem items_of_comma {position : Nat} {cs left rest : List Char} {item : Json}
    (h : value bound depth (shape.item position) cs = some (item, left))
    (hleft : skipBlanks left = ',' :: rest) (before : List Json) :
    items (bound + 1) depth shape position before cs =
      items bound depth shape (position + 1) (item :: before) rest := by
  rw [items, h]
  dsimp only
  rw [hleft]
  rfl

/-- The last member of an array with the bracket behind it. -/
theorem items_of_close {position : Nat} {cs left rest : List Char} {item : Json}
    (h : value bound depth (shape.item position) cs = some (item, left))
    (hleft : skipBlanks left = ']' :: rest) (before : List Json) :
    items (bound + 1) depth shape position before cs =
      some (.arr (item :: before).reverse, rest) := by
  rw [items, h]
  dsimp only
  rw [hleft]
  rfl

/-- Members of an array that are read one by one are read together. -/
theorem items_separated {members : List Item} (hne : members ≠ []) {position : Nat}
    (hmembers : ∀ i item, members[i]? = some item →
      Reads depth (shape.item (position + i)) item.value item.content.text)
    (hbound : 2 * (separated (members.map (·.content.chars))).length + 1 ≤ bound)
    (before : List Json) (rest : List Char) :
    items bound depth shape position before
        (separated (members.map (·.content.chars)) ++ ']' :: rest) =
      some (.arr (before.reverse ++ members.map (·.value)), rest) := by
  induction members generalizing position before bound with
  | nil => exact absurd rfl hne
  | cons item members ih =>
    obtain ⟨bound, rfl⟩ : ∃ b, bound = b + 1 := ⟨bound - 1, by omega⟩
    have hfirst : Reads depth (shape.item position) item.value item.content.text :=
      hmembers 0 item rfl
    have hafter := item.content.blank.2
    cases members with
    | nil =>
      have htext : separated ([item].map (·.content.chars)) = item.content.chars := rfl
      rw [htext] at hbound ⊢
      rw [items_of_close (hfirst.padded (by omega) (ends_cons (by simp) rest))
        (hafter.skipBlanks_append_cons (by decide) rest), List.reverse_cons]
      rfl
    | cons next members =>
      have htext : separated ((item :: next :: members).map (·.content.chars)) =
          item.content.chars ++ ',' :: separated ((next :: members).map (·.content.chars)) := rfl
      rw [htext, List.length_append, List.length_cons] at hbound
      rw [htext, List.append_assoc, List.cons_append,
        items_of_comma (hfirst.padded (by omega) (ends_cons (by simp) _))
          (hafter.skipBlanks_append_cons (by decide) _),
        ih (List.cons_ne_nil _ _) ?_ (by omega), List.reverse_cons, List.append_assoc]
      · rfl
      · intro i item h
        rw [Nat.add_assoc, Nat.add_comm 1 i]
        exact hmembers (i + 1) item h

/-- A name is read behind its opening quote. -/
theorem Named.name?_eq {name : String} {text : List Char} (h : Named shape name text) :
    ∃ cs, text = '"' :: cs ∧
      ∀ rest, fields.name? shape (cs ++ rest) = some (name, rest) := by
  cases h with
  | @read _ text asked spelled =>
    refine ⟨_, rfl, fun rest => ?_⟩
    rw [List.append_assoc, List.singleton_append, fields.name?, asked, if_neg Bool.false_ne_true,
      spelled.stringFrom, List.reverse_nil, List.nil_append, String.ofList_toList]
    rfl
  | passed skipped passable =>
    refine ⟨_, rfl, fun rest => ?_⟩
    rw [List.append_assoc, List.singleton_append, fields.name?, skipped, if_pos rfl,
      passable.skipString]
    rfl

/-- The name of a field is read up to the colon behind it. -/
theorem name?_label {field : Field} (h : Named shape field.name field.label.text)
    (cs : List Char) :
    ∃ rest after, skipBlanks (field.label.chars ++ ':' :: cs) = '"' :: rest ∧
      fields.name? shape rest = some (field.name, after) ∧ skipBlanks after = ':' :: cs := by
  obtain ⟨name, htext, hname⟩ := h.name?_eq
  refine ⟨name ++ (field.label.after ++ ':' :: cs), field.label.after ++ ':' :: cs, ?_, hname _,
    field.label.blank.2.skipBlanks_append_cons (by decide) cs⟩
  rw [Padded.chars, htext]
  simp only [List.append_assoc, List.cons_append]
  exact field.label.blank.1.skipBlanks_append_cons (by decide) _

/-- A field of an object with the comma behind it. -/
theorem fields_of_comma {field : Field} (hname : Named shape field.name field.label.text)
    {cs left rest : List Char} {item : Json}
    (h : value bound depth (shape.field field.name) cs = some (item, left))
    (hleft : skipBlanks left = ',' :: rest) (before : List (String × Json)) :
    fields (bound + 1) depth shape before (field.label.chars ++ ':' :: cs) =
      fields bound depth shape ((field.name, item) :: before) rest := by
  obtain ⟨text, after, hlabel, hread, hcolon⟩ := name?_label hname cs
  rw [fields, hlabel]
  simp only [hread, hcolon, h, hleft]

/-- The last field of an object with the bracket behind it. -/
theorem fields_of_close {field : Field} (hname : Named shape field.name field.label.text)
    {cs left rest : List Char} {item : Json}
    (h : value bound depth (shape.field field.name) cs = some (item, left))
    (hleft : skipBlanks left = '\x7d' :: rest) (before : List (String × Json)) :
    fields (bound + 1) depth shape before (field.label.chars ++ ':' :: cs) =
      some (.obj ((field.name, item) :: before).reverse, rest) := by
  obtain ⟨text, after, hlabel, hread, hcolon⟩ := name?_label hname cs
  rw [fields, hlabel]
  simp only [hread, hcolon, h, hleft]

/-- Fields of an object that are read one by one are read together. -/
theorem fields_separated {members : List Field} (hne : members ≠ [])
    (hnames : ∀ field ∈ members, Named shape field.name field.label.text)
    (hmembers : ∀ field ∈ members,
      Reads depth (shape.field field.name) field.value field.content.text)
    (hbound : 2 * (separated (members.map Field.chars)).length + 1 ≤ bound)
    (before : List (String × Json)) (rest : List Char) :
    fields bound depth shape before (separated (members.map Field.chars) ++ '\x7d' :: rest) =
      some (.obj (before.reverse ++ members.map fun field => (field.name, field.value)), rest) := by
  induction members generalizing before bound with
  | nil => exact absurd rfl hne
  | cons field members ih =>
    obtain ⟨bound, rfl⟩ : ∃ b, bound = b + 1 := ⟨bound - 1, by omega⟩
    obtain ⟨hname, hnames⟩ := List.forall_mem_cons.mp hnames
    obtain ⟨hfirst, hmembers⟩ := List.forall_mem_cons.mp hmembers
    have hafter := field.content.blank.2
    cases members with
    | nil =>
      have htext : separated ([field].map Field.chars) = field.chars := rfl
      rw [htext, Field.chars, List.length_append, List.length_cons] at hbound
      rw [htext, Field.chars, List.append_assoc, List.cons_append,
        fields_of_close hname (hfirst.padded (by omega) (ends_cons (by simp) rest))
          (hafter.skipBlanks_append_cons (by decide) rest), List.reverse_cons]
      rfl
    | cons next members =>
      have htext : separated ((field :: next :: members).map Field.chars) =
          field.chars ++ ',' :: separated ((next :: members).map Field.chars) := rfl
      rw [htext, List.length_append, Field.chars, List.length_append, List.length_cons,
        List.length_cons] at hbound
      rw [htext, Field.chars, List.append_assoc, List.append_assoc, List.cons_append,
        List.cons_append,
        fields_of_comma hname (hfirst.padded (by omega) (ends_cons (by simp) _))
          (hafter.skipBlanks_append_cons (by decide) _),
        ih (List.cons_ne_nil _ _) hnames hmembers (by omega), List.reverse_cons,
        List.append_assoc]
      rfl

/-- It takes one step to look at the first character of a text. -/
theorem Written.reads_of_step {j : Json} {text : List Char} (h : Written depth shape j text)
    (hstep : ∀ bound, 2 * text.length ≤ bound + 1 → ∀ rest, Ends rest →
      value (bound + 1) depth shape (text ++ rest) = some (j, rest)) :
    Reads depth shape j text := by
  intro bound hbound rest hrest
  obtain ⟨c, cs, htext, -⟩ := h.opened
  have hpos : 0 < text.length := by rw [htext]; exact Nat.succ_pos _
  obtain ⟨bound, rfl⟩ : ∃ b, bound = b + 1 := ⟨bound - 1, by omega⟩
  exact hstep bound hbound rest hrest

/-- Texts with commas between them begin with the first of them. -/
theorem exists_separated_eq (text : List Char) (texts : List (List Char)) :
    ∃ tail, separated (text :: texts) = text ++ tail := by
  cases texts with
  | nil => exact ⟨[], (List.append_nil text).symm⟩
  | cons next texts => exact ⟨_, rfl⟩

/-- Behind the blanks of a text stands what it begins with. -/
theorem Padded.skipBlanks_chars {p : Padded} {c : Char} {cs : List Char} (htext : p.text = c :: cs)
    (hc : Opens c) (rest : List Char) :
    skipBlanks (p.chars ++ rest) = c :: (cs ++ (p.after ++ rest)) := by
  rw [Padded.chars, htext, List.append_assoc, List.append_assoc, skipBlanks_append p.blank.1,
    List.cons_append, skipBlanks_of_opens hc]

/-- Behind the bracket of an array its members are read. -/
theorem value_arr (h : Inside shape depth inner) (hoctets : ∀ n, shape ≠ .octets n)
    {item : Item} (hitem : Opened item.content.text) (items : List Item) (rest : List Char) :
    value (bound + 1) depth shape
        ('[' :: (separated ((item :: items).map (·.content.chars)) ++ rest)) =
      Json.items bound inner shape 0 []
        (separated ((item :: items).map (·.content.chars)) ++ rest) := by
  obtain ⟨c, cs, htext, hopens⟩ := hitem
  obtain ⟨tail, htail⟩ := exists_separated_eq item.content.chars (items.map (·.content.chars))
  rw [List.map_cons, htail, List.append_assoc, value_opens_arr h hoctets,
    ← items_skipBlanks 0 [] (item.content.chars ++ _), Padded.skipBlanks_chars htext hopens]
  split
  next heq =>
    rw [List.head_eq_of_cons_eq heq] at hopens
    exact absurd hopens (by decide)
  next => rfl

/-- Behind the bracket of an object its fields are read. -/
theorem value_obj (h : Inside shape depth inner) {field : Field} {cs : List Char}
    (hname : field.label.text = '"' :: cs) (fields : List Field) (rest : List Char) :
    value (bound + 1) depth shape
        ('\x7b' :: (separated ((field :: fields).map Field.chars) ++ rest)) =
      Json.fields bound inner shape [] (separated ((field :: fields).map Field.chars) ++ rest) := by
  obtain ⟨tail, htail⟩ := exists_separated_eq field.chars (fields.map Field.chars)
  rw [List.map_cons, htail, Field.chars, List.append_assoc, List.append_assoc, value_opens_obj h,
    ← fields_skipBlanks [] (field.label.chars ++ _),
    Padded.skipBlanks_chars hname (by decide)]
  rfl

/-- **A value is read back from each of its texts.** -/
theorem Written.reads {j : Json} {text : List Char} (h : Written depth shape j text) :
    Reads depth shape j text := by
  induction h with
  | null => exact Written.null.reads_of_step fun bound _ rest _ => value_null rest
  | bool asked =>
    exact (Written.bool asked).reads_of_step fun bound _ rest _ => value_bool asked _ rest
  | @word depth shape n asked bounded =>
    refine (Written.word asked bounded).reads_of_step fun bound _ rest hrest => ?_
    obtain ⟨d, hd, -, tail, htail⟩ := exists_toDigits_eq_cons (by decide : 1 < 10) n
    have hscan := scanNumber_toDigits bounded hrest
    rw [htail, List.cons_append] at hscan
    rw [htail, List.cons_append, value_digit asked hd, hscan]
    rfl
  | @number depth text numeric =>
    refine (Written.number numeric).reads_of_step fun bound _ rest hrest => ?_
    have hskip := numeric.skipNumber hrest
    obtain ⟨c, cs, rfl, hc⟩ := numeric.exists_eq_cons
    rw [List.cons_append] at hskip ⊢
    rw [value_numeric hc, hskip]
    rfl
  | @str depth shape s text asked spelled =>
    refine (Written.str asked spelled).reads_of_step fun bound _ rest _ => ?_
    rw [List.cons_append, List.append_assoc, List.singleton_append, value_quote asked,
      spelled.stringFrom, List.reverse_nil, List.nil_append, String.ofList_toList]
    rfl
  | @string depth text passable =>
    refine (Written.string passable).reads_of_step fun bound _ rest _ => ?_
    rw [List.cons_append, List.append_assoc, List.singleton_append, value_passable,
      passable.skipString]
    rfl
  | @emptyArr depth inner shape blanks inside notOctets blank =>
    refine (Written.emptyArr inside notOctets blank).reads_of_step fun bound _ rest _ => ?_
    rw [List.cons_append, List.append_assoc, List.singleton_append,
      value_opens_arr inside notOctets, blank.skipBlanks_append_cons (by decide)]
    rfl
  | @arr depth inner shape items inside notOctets nonempty members ih =>
    refine (Written.arr inside notOctets nonempty members).reads_of_step
      fun bound hbound rest _ => ?_
    obtain ⟨item, items, rfl⟩ := List.exists_cons_of_ne_nil nonempty
    rw [List.length_cons, List.length_append] at hbound
    rw [List.cons_append, List.append_assoc, List.singleton_append,
      value_arr inside notOctets (members 0 item rfl).opened,
      items_separated nonempty ?_ (by omega)]
    · rfl
    · intro i item h
      rw [Nat.zero_add]
      exact ih i item h
  | @emptyObj depth inner shape blanks inside blank =>
    refine (Written.emptyObj inside blank).reads_of_step fun bound _ rest _ => ?_
    rw [List.cons_append, List.append_assoc, List.singleton_append,
      value_opens_obj inside, blank.skipBlanks_append_cons (by decide)]
    rfl
  | @obj depth inner shape fields inside nonempty names members ih =>
    refine (Written.obj inside nonempty names members).reads_of_step
      fun bound hbound rest _ => ?_
    obtain ⟨field, fields, rfl⟩ := List.exists_cons_of_ne_nil nonempty
    obtain ⟨cs, hname, -⟩ := (names field List.mem_cons_self).name?_eq
    rw [List.length_cons, List.length_append] at hbound
    rw [List.cons_append, List.append_assoc, List.singleton_append, value_obj inside hname,
      fields_separated nonempty names ih (by omega)]
    rfl

end values

/-- A value is read from a text with blanks around it. -/
theorem Written.parse?_chars {shape : Shape} {j : Json} {p : Padded}
    (h : Written deepest shape j p.text) : parse? shape (String.ofList p.chars) = some j := by
  have hread : read? shape p.chars = some (j, p.after) := by
    have hvalue := h.reads.padded (Nat.le_add_right _ 2) ends_nil
    rwa [List.append_nil, List.append_nil] at hvalue
  have hafter : skipBlanks p.after = [] := by
    have hskip := skipBlanks_append p.blank.2 []
    rwa [List.append_nil] at hskip
  rw [parse?, String.toList_ofList, hread]
  show (if (skipBlanks p.after).isEmpty then some j else none) = some j
  rw [hafter]
  rfl

end ExecutionNode.Json
