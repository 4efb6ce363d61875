import ExecutionNode.Json.Parser
import ExecutionNode.Json.Printer
import ExecutionNode.Proofs.Json.Scalars

/-!
# Printed values are read back

A value that was printed is read back as it is, provided that everything in it is asked for.

* `Escaped` lists the ways to write a character of a string; each of them is read back
  (`Escaped.stringFrom`), and so is the string (`stringFrom_quoted`).
* `scanNumber_toDigits` reads a word back, if nothing behind it could continue a number (`Ends`).
* `Legible` says of a value under a shape that none of its parts is passed over, that its numbers
  are words and that its brackets are not nested too deep.  `Legible.readsBack` goes by induction
  on it; the bound on the recursion that it needs is twice the length of the text.
-/

namespace ExecutionNode.Json

/-! ### Strings -/

/-- The ways in which a character is written inside a string. -/
inductive Escaped (c : Char) : List Char → Prop where
  /-- By a letter behind a backslash. -/
  | letter {mark : Char} (meaning : simpleEscape? mark = some c) (short : mark ≠ 'u') :
      Escaped c ['\\', mark]
  /-- By its number. -/
  | number {a b d e : Char} (meaning : fourDigits a b d e = some c.toNat)
      (whole : isHighHalf c.toNat = false ∧ isLowHalf c.toNat = false) :
      Escaped c ['\\', 'u', a, b, d, e]
  /-- By itself. -/
  | plain (quote : c ≠ '"') (backslash : c ≠ '\\') (printed : ¬ c.toNat < 0x20) : Escaped c [c]

/-- A control character is no half of a surrogate pair. -/
theorem not_isHalf_of_control :
    ∀ n < 0x20, isHighHalf n = false ∧ isLowHalf n = false := by decide

/-- Every character is written in one of these ways. -/
theorem escaped_escape (c : Char) : Escaped c (escape c) := by
  unfold escape
  split_ifs with hquote hbackslash hline hreturn htab hback hfeed hcontrol
  · exact .letter (by rw [hquote]; rfl) (by decide)
  · exact .letter (by rw [hbackslash]; rfl) (by decide)
  · exact .letter (by rw [hline]; rfl) (by decide)
  · exact .letter (by rw [hreturn]; rfl) (by decide)
  · exact .letter (by rw [htab]; rfl) (by decide)
  · exact .letter (by rw [hback]; rfl) (by decide)
  · exact .letter (by rw [hfeed]; rfl) (by decide)
  · refine .number ?_ (not_isHalf_of_control _ hcontrol)
    generalize c.toNat = n at hcontrol
    interval_cases n <;> rfl
  · exact .plain hquote hbackslash hcontrol

/-- A character is read back from the way it is written. -/
theorem Escaped.stringFrom {c : Char} {written : List Char} (h : Escaped c written)
    (read cs : List Char) :
    stringFrom read (written ++ cs) = Json.stringFrom (c :: read) cs := by
  cases h with
  | letter meaning short =>
    rw [List.cons_append, List.singleton_append, Json.stringFrom, meaning]
    · exact fun _ _ _ _ _ hmark _ => short hmark
    · exact short
  | number meaning whole =>
    simp only [List.cons_append, List.nil_append]
    rw [Json.stringFrom, meaning]
    dsimp only
    rw [whole.1, whole.2]
    simp only [Bool.false_eq_true, if_false, Char.ofNat_toNat]
  | plain quote backslash printed =>
    rw [List.singleton_append, Json.stringFrom, if_neg printed]
    · exact quote
    · exact fun _ _ _ _ _ hc _ => backslash hc
    · exact fun _ hc _ => backslash hc
    · exact fun _ _ hc _ => backslash hc

/-- The characters of a string are read back up to the closing quote. -/
theorem stringFrom_escape (read cs rest : List Char) :
    stringFrom read (cs.flatMap escape ++ '"' :: rest) =
      .ok (String.ofList (read.reverse ++ cs), rest) := by
  induction cs generalizing read with
  | nil => rw [List.flatMap_nil, List.nil_append, stringFrom, List.append_nil]
  | cons c cs ih =>
    rw [List.flatMap_cons, List.append_assoc, (escaped_escape c).stringFrom, ih,
      List.reverse_cons, List.append_assoc, List.singleton_append]

/-- A string is read back behind its opening quote. -/
theorem stringFrom_quoted (s : String) (rest : List Char) :
    stringFrom [] (s.toList.flatMap escape ++ '"' :: rest) = .ok (s, rest) := by
  rw [stringFrom_escape, List.reverse_nil, List.nil_append, String.ofList_toList]

/-! ### Numbers -/

/-- Nothing in front of the text could continue a number. -/
def Ends (rest : List Char) : Prop :=
  ∀ c ∈ rest.head?, isDigit c = false ∧ c ≠ '.' ∧ c ≠ 'e' ∧ c ≠ 'E'

/-- The end of a text ends a number. -/
theorem ends_nil : Ends [] := nofun

/-- A comma and the closing brackets end a number. -/
theorem ends_cons {c : Char} (h : c ∈ [',', ']', '\x7d']) (rest : List Char) :
    Ends (c :: rest) := by
  rintro _ ⟨⟩
  simp only [List.mem_cons, List.not_mem_nil, or_false] at h
  rcases h with rfl | rfl | rfl <;> decide

/-- The digits of a number are digits. -/
theorem isDigit_of_mem_toDigits {n : Nat} {c : Char} (h : c ∈ Nat.toDigits 10 n) :
    isDigit c = true := Nat.isDigit_of_mem_toDigits (by decide) (by decide) h

/-- The value of the digits of a number. -/
theorem natOfDigits_toDigits (n : Nat) : natOfDigits (Nat.toDigits 10 n) = n := by
  have h : Nat.ofDigitChars 10 (Nat.toDigits 10 n) 0 = n := Nat.ofDigitChars_ten_toDigits
  rw [Nat.ofDigitChars_eq_foldl] at h
  rw [natOfDigits]
  simpa only [Magnitude.digitOf, Nat.mul_comm] using h

/-- Digits are taken from a text up to what ends them. -/
theorem span_digits {digits rest : List Char} (hdigits : ∀ c ∈ digits, isDigit c = true)
    (hrest : Ends rest) :
    (digits ++ rest).takeWhile isDigit = digits ∧ (digits ++ rest).dropWhile isDigit = rest :=
  span_append hdigits fun c hc => (hrest c hc).1

/-- Behind the digits of a whole number there is no more of it. -/
theorem NumberText.scanRest_of_ends (t : NumberText) {rest : List Char} (h : Ends rest) :
    t.scanRest rest = .ok (t, rest) := by
  cases rest with
  | nil => rfl
  | cons c rest =>
    obtain ⟨-, hpoint, hlower, hupper⟩ := h c rfl
    have hpower : ¬ (c = 'e' ∨ c = 'E') := not_or.mpr ⟨hlower, hupper⟩
    have hscan : t.scanPower (c :: rest) = .ok (t, c :: rest) := by
      unfold scanPower
      exact if_neg hpower
    rw [scanRest, hscan]
    exact fun _ heq => hpoint (List.head_eq_of_cons_eq heq)

/-- A zero stands alone. -/
theorem NumberText.scan_zero {rest : List Char} (h : Ends rest) :
    scan ('0' :: rest) = .ok (⟨false, ['0'], none, none⟩, rest) := by
  have hnext : rest.head?.any isDigit = false := by
    cases rest with
    | nil => rfl
    | cons c rest => exact (h c rfl).1
  show scanUnsigned false ('0' :: rest) = _
  rw [scanUnsigned, hnext, if_neg Bool.false_ne_true, scanRest_of_ends _ h]

/-- The digits of a number are taken as its digits before the point. -/
theorem NumberText.scan_toDigits (n : Nat) {rest : List Char} (h : Ends rest) :
    scan (Nat.toDigits 10 n ++ rest) = .ok (⟨false, Nat.toDigits 10 n, none, none⟩, rest) := by
  by_cases hn : n = 0
  · subst hn
    exact scan_zero h
  obtain ⟨hdigits, hrest⟩ := span_digits (fun c => isDigit_of_mem_toDigits (n := n)) h
  obtain ⟨d, hd, hzero, tail, htail⟩ := exists_toDigits_eq_cons (by decide : 1 < 10) n
  have hsign : d.digitChar ≠ '-' := by interval_cases d <;> decide
  have hlead : d.digitChar ≠ '0' := fun heq => hn (hzero (Nat.digitChar_eq_zero.mp heq))
  rw [htail, List.cons_append] at hdigits hrest ⊢
  rw [scan, scanUnsigned]
  · rw [hdigits, hrest]
    exact scanRest_of_ends _ h
  · exact fun _ heq => hlead (List.head_eq_of_cons_eq heq)
  · exact fun _ heq => hsign (List.head_eq_of_cons_eq heq)

/-- A word is read back from its digits. -/
theorem scanNumber_toDigits {n : Nat} (hn : n < UInt64.size) {rest : List Char} (h : Ends rest) :
    scanNumber (Nat.toDigits 10 n ++ rest) = .ok (.natural n, rest) := by
  rw [scanNumber, NumberText.scan_toDigits n h]
  dsimp only [NumberText.number, NumberText.unread?]
  rw [natOfDigits_toDigits]
  simp [hn]

/-! ### Values -/

/-- A value, read under a shape with so many brackets inside each other, of which every part is
asked for. -/
inductive Legible : Nat → Shape → Json → Prop where
  /-- The null value. -/
  | null {depth : Nat} {shape : Shape} (kept : shape.isSkipped = false) : Legible depth shape .null
  /-- A truth value. -/
  | bool {depth : Nat} {shape : Shape} {b : Bool} (kept : shape.isSkipped = false) :
      Legible depth shape (.bool b)
  /-- A number without sign, point and exponent that is a word. -/
  | word {depth : Nat} {shape : Shape} {n : Nat} (kept : shape.isSkipped = false)
      (bounded : n < UInt64.size) : Legible depth shape (.num (.natural n))
  /-- A string. -/
  | str {depth : Nat} {shape : Shape} {s : String} (kept : shape.isSkipped = false) :
      Legible depth shape (.str s)
  /-- An array, where none is read for a byte string. -/
  | arr {depth : Nat} {shape : Shape} {items : List Json} (kept : shape.isSkipped = false)
      (notOctets : ∀ n, shape ≠ .octets n)
      (members : ∀ i item, items[i]? = some item → Legible depth (shape.item i) item) :
      Legible (depth + 1) shape (.arr items)
  /-- An object. -/
  | obj {depth : Nat} {shape : Shape} {fields : List (String × Json)}
      (kept : shape.isSkipped = false)
      (members : ∀ field ∈ fields, Legible depth (shape.field field.1) field.2) :
      Legible (depth + 1) shape (.obj fields)

section values

variable {bound depth : Nat} {shape : Shape}

theorem value_null (rest : List Char) :
    value (bound + 1) depth shape ("null".toList ++ rest) = some (.null, rest) := by
  unfold value
  rfl

theorem value_true (hkept : shape.isSkipped = false) (rest : List Char) :
    value (bound + 1) depth shape ("true".toList ++ rest) = some (.bool true, rest) := by
  cases shape with
  | verbatim => cases hkept
  | _ => unfold value; rfl

theorem value_false (hkept : shape.isSkipped = false) (rest : List Char) :
    value (bound + 1) depth shape ("false".toList ++ rest) = some (.bool false, rest) := by
  cases shape with
  | verbatim => cases hkept
  | _ => unfold value; rfl

theorem value_quote (hkept : shape.isSkipped = false) (rest : List Char) :
    value (bound + 1) depth shape ('"' :: rest) =
      (stringFrom [] rest).toOption.map fun (s, rest) => (.str s, rest) := by
  cases shape with
  | verbatim => cases hkept
  | skipped => cases hkept
  | _ => unfold value; rfl

theorem value_bracket (hkept : shape.isSkipped = false) (hoctets : ∀ n, shape ≠ .octets n)
    (rest : List Char) :
    value (bound + 1) (depth + 1) shape ('[' :: rest) =
      match skipBlanks rest with
      | ']' :: rest => some (.arr [], rest)
      | rest => items bound depth shape 0 [] rest := by
  cases shape with
  | verbatim => cases hkept
  | skipped => cases hkept
  | octets n => exact absurd rfl (hoctets n)
  | _ => unfold value; rfl

theorem value_brace (hkept : shape.isSkipped = false) (rest : List Char) :
    value (bound + 1) (depth + 1) shape ('\x7b' :: rest) =
      match skipBlanks rest with
      | '\x7d' :: rest => some (.obj [], rest)
      | rest => fields bound depth shape [] rest := by
  cases shape with
  | verbatim => cases hkept
  | skipped => cases hkept
  | _ => unfold value; rfl

theorem value_digit (hkept : shape.isSkipped = false) {d : Nat} (hd : d < 10)
    (rest : List Char) :
    value (bound + 1) depth shape (d.digitChar :: rest) =
      (scanNumber (d.digitChar :: rest)).toOption.map fun (n, rest) => (.num n, rest) := by
  cases shape with
  | verbatim => cases hkept
  | skipped => cases hkept
  | _ => interval_cases d <;> unfold value <;> rfl

/-- A character that a printed value may begin with: no blank, and no end of an array. -/
def Opens (c : Char) : Prop := c ∉ [' ', '\t', '\n', '\r', ']']

instance (c : Char) : Decidable (Opens c) := inferInstanceAs (Decidable (c ∉ _))

/-- There are no blanks in front of what a value begins with. -/
theorem skipBlanks_of_opens {c : Char} (h : Opens c) (cs : List Char) :
    skipBlanks (c :: cs) = c :: cs := by
  have hblank : ¬ (c = ' ' ∨ c = '\t' ∨ c = '\n' ∨ c = '\r') := by
    simp only [Opens, List.mem_cons, List.not_mem_nil, or_false] at h
    tauto
  rw [skipBlanks, if_neg hblank]

/-- What a printed value begins with. -/
theorem Legible.exists_print_eq_cons {j : Json} (h : Legible depth shape j) :
    ∃ c cs, print j = c :: cs ∧ Opens c := by
  cases h with
  | null kept => exact ⟨_, _, rfl, by decide⟩
  | @bool depth shape b kept => cases b <;> exact ⟨_, _, rfl, by decide⟩
  | @word depth shape n kept bounded =>
    obtain ⟨d, hd, -, tail, htail⟩ := exists_toDigits_eq_cons (by decide : 1 < 10) n
    exact ⟨_, _, htail, by interval_cases d <;> decide⟩
  | str kept => exact ⟨_, _, rfl, by decide⟩
  | arr kept notOctets members => exact ⟨_, _, rfl, by decide⟩
  | obj kept members => exact ⟨_, _, rfl, by decide⟩

/-- A printed value is read back under a shape, whatever ends it. -/
def ReadsBack (depth : Nat) (shape : Shape) (j : Json) : Prop :=
  ∀ bound, 2 * (print j).length ≤ bound → ∀ rest, Ends rest →
    value bound depth shape (print j ++ rest) = some (j, rest)

/-- A member of an array with the comma behind it. -/
theorem items_comma {position : Nat} {cs rest : List Char} {item : Json}
    (h : value bound depth (shape.item position) cs = some (item, ',' :: rest))
    (before : List Json) :
    items (bound + 1) depth shape position before cs =
      items bound depth shape (position + 1) (item :: before) rest := by
  rw [items, h]
  rfl

/-- The last member of an array with the bracket behind it. -/
theorem items_close {position : Nat} {cs rest : List Char} {item : Json}
    (h : value bound depth (shape.item position) cs = some (item, ']' :: rest))
    (before : List Json) :
    items (bound + 1) depth shape position before cs =
      some (.arr (item :: before).reverse, rest) := by
  rw [items, h]
  rfl

/-- The members of an array are read back from a position on if each of them is. -/
theorem items_printItems {members : List Json} (hne : members ≠ []) {position : Nat}
    (hmembers : ∀ i item, members[i]? = some item →
      ReadsBack depth (shape.item (position + i)) item)
    (hbound : 2 * (printItems members).length + 1 ≤ bound) (before : List Json)
    (rest : List Char) :
    items bound depth shape position before (printItems members ++ ']' :: rest) =
      some (.arr (before.reverse ++ members), rest) := by
  induction members generalizing position before bound with
  | nil => exact absurd rfl hne
  | cons item members ih =>
    obtain ⟨bound, rfl⟩ : ∃ b, bound = b + 1 := ⟨bound - 1, by omega⟩
    have hfirst : ReadsBack depth (shape.item position) item := hmembers 0 item rfl
    cases members with
    | nil =>
      rw [printItems] at hbound ⊢
      rw [items_close (hfirst bound (by omega) _ (ends_cons (by simp) rest)), List.reverse_cons]
    | cons next members =>
      have hprint : printItems (item :: next :: members) =
          print item ++ ',' :: printItems (next :: members) := rfl
      rw [hprint, List.length_append, List.length_cons] at hbound
      rw [hprint, List.append_assoc, List.cons_append,
        items_comma (hfirst bound (by omega) _ (ends_cons (by simp) _)),
        ih (List.cons_ne_nil _ _) ?_ (by omega), List.reverse_cons, List.append_assoc,
        List.singleton_append]
      intro i item h
      rw [Nat.add_assoc, Nat.add_comm 1 i]
      exact hmembers (i + 1) item h

/-- A field is read up to its value. -/
theorem fields_quoted (hkept : shape.isSkipped = false) (before : List (String × Json))
    (name : String) (cs : List Char) :
    fields (bound + 1) depth shape before (quoted name ++ ':' :: cs) =
      match value bound depth (shape.field name) cs with
      | none => none
      | some (item, rest) =>
        match skipBlanks rest with
        | ',' :: rest => fields bound depth shape ((name, item) :: before) rest
        | '\x7d' :: rest => some (.obj ((name, item) :: before).reverse, rest)
        | _ => none := by
  have hname : fields.name? shape (name.toList.flatMap escape ++ '"' :: ':' :: cs) =
      some (name, ':' :: cs) := by
    rw [fields.name?, hkept, if_neg Bool.false_ne_true, stringFrom_quoted]
    rfl
  have hquoted : quoted name ++ ':' :: cs =
      '"' :: (name.toList.flatMap escape ++ '"' :: ':' :: cs) := by
    rw [quoted, List.append_assoc]
    rfl
  rw [hquoted, fields, skipBlanks_of_opens (by decide)]
  split
  · rename_i rest heq
    obtain rfl : _ = rest := List.tail_eq_of_cons_eq heq
    rw [hname]
    rfl
  · rename_i hopen
    exact absurd rfl (hopen _)

/-- A field of an object with the comma behind it. -/
theorem fields_comma (hkept : shape.isSkipped = false) {name : String} {cs rest : List Char}
    {item : Json} (h : value bound depth (shape.field name) cs = some (item, ',' :: rest))
    (before : List (String × Json)) :
    fields (bound + 1) depth shape before (quoted name ++ ':' :: cs) =
      fields bound depth shape ((name, item) :: before) rest := by
  rw [fields_quoted hkept, h]
  rfl

/-- The last field of an object with the bracket behind it. -/
theorem fields_close (hkept : shape.isSkipped = false) {name : String} {cs rest : List Char}
    {item : Json} (h : value bound depth (shape.field name) cs = some (item, '\x7d' :: rest))
    (before : List (String × Json)) :
    fields (bound + 1) depth shape before (quoted name ++ ':' :: cs) =
      some (.obj ((name, item) :: before).reverse, rest) := by
  rw [fields_quoted hkept, h]
  rfl

/-- The fields of an object are read back if the value of each of them is. -/
theorem fields_printFields {members : List (String × Json)} (hne : members ≠ [])
    (hkept : shape.isSkipped = false)
    (hmembers : ∀ field ∈ members, ReadsBack depth (shape.field field.1) field.2)
    (hbound : 2 * (printFields members).length + 1 ≤ bound) (before : List (String × Json))
    (rest : List Char) :
    fields bound depth shape before (printFields members ++ '\x7d' :: rest) =
      some (.obj (before.reverse ++ members), rest) := by
  induction members generalizing before bound with
  | nil => exact absurd rfl hne
  | cons field members ih =>
    obtain ⟨name, item⟩ := field
    obtain ⟨bound, rfl⟩ : ∃ b, bound = b + 1 := ⟨bound - 1, by omega⟩
    have hfirst : ReadsBack depth (shape.field name) item := hmembers _ List.mem_cons_self
    cases members with
    | nil =>
      have hprint : printFields [(name, item)] = quoted name ++ ':' :: print item := rfl
      rw [hprint, List.length_append, List.length_cons] at hbound
      rw [hprint, List.append_assoc, List.cons_append,
        fields_close hkept (hfirst bound (by omega) _ (ends_cons (by simp) rest)),
        List.reverse_cons]
    | cons next members =>
      have hprint : printFields ((name, item) :: next :: members) =
          quoted name ++ ':' :: print item ++ ',' :: printFields (next :: members) := rfl
      rw [hprint, List.length_append, List.length_append, List.length_cons,
        List.length_cons] at hbound
      rw [hprint, List.append_assoc, List.append_assoc, List.cons_append, List.cons_append,
        fields_comma hkept (hfirst bound (by omega) _ (ends_cons (by simp) _)),
        ih (List.cons_ne_nil _ _) ?_ (by omega), List.reverse_cons, List.append_assoc,
        List.singleton_append]
      exact fun field h => hmembers field (List.mem_cons_of_mem _ h)

/-- It takes one step to look at the first character of a value. -/
theorem Legible.readsBack_of_step {j : Json} (h : Legible depth shape j)
    (hstep : ∀ bound, 2 * (print j).length ≤ bound + 1 → ∀ rest, Ends rest →
      value (bound + 1) depth shape (print j ++ rest) = some (j, rest)) :
    ReadsBack depth shape j := by
  intro bound hbound rest hrest
  obtain ⟨c, cs, hprint, -⟩ := h.exists_print_eq_cons
  have hpos : 0 < (print j).length := by rw [hprint]; exact Nat.succ_pos _
  obtain ⟨bound, rfl⟩ : ∃ b, bound = b + 1 := ⟨bound - 1, by omega⟩
  exact hstep bound hbound rest hrest

/-- Behind the bracket of an array that is not empty its members are read. -/
theorem value_printItems (hkept : shape.isSkipped = false) (hoctets : ∀ n, shape ≠ .octets n)
    {item : Json} (hitem : Legible depth (shape.item 0) item) (items : List Json)
    (rest : List Char) :
    value (bound + 1) (depth + 1) shape ('[' :: (printItems (item :: items) ++ rest)) =
      Json.items bound depth shape 0 [] (printItems (item :: items) ++ rest) := by
  obtain ⟨c, cs, hfirst, hopens⟩ := hitem.exists_print_eq_cons
  obtain ⟨tail, hprint⟩ : ∃ tail, printItems (item :: items) = c :: tail := by
    cases items with
    | nil => exact ⟨cs, hfirst⟩
    | cons next items =>
      exact ⟨cs ++ ',' :: printItems (next :: items), by rw [printItems, hfirst]; rfl; nofun⟩
  rw [value_bracket hkept hoctets, hprint, List.cons_append, skipBlanks_of_opens hopens]
  split
  · rename_i heq
    rw [List.head_eq_of_cons_eq heq] at hopens
    exact absurd hopens (by decide)
  · rfl

/-- Behind the bracket of an object that is not empty its fields are read. -/
theorem value_printFields (hkept : shape.isSkipped = false) (field : String × Json)
    (fields : List (String × Json)) (rest : List Char) :
    value (bound + 1) (depth + 1) shape ('\x7b' :: (printFields (field :: fields) ++ rest)) =
      Json.fields bound depth shape [] (printFields (field :: fields) ++ rest) := by
  obtain ⟨tail, hprint⟩ : ∃ tail, printFields (field :: fields) = '"' :: tail := by
    cases fields with
    | nil => exact ⟨_, rfl⟩
    | cons next fields => exact ⟨_, rfl⟩
  rw [value_brace hkept, hprint, List.cons_append, skipBlanks_of_opens (by decide)]
  rfl

/-- A value whose parts are all asked for is read back. The recursion needs a bound of twice the
length of the text, as a bracket and a member take one step each. -/
theorem Legible.readsBack {j : Json} (h : Legible depth shape j) : ReadsBack depth shape j := by
  induction h with
  | null kept =>
    exact (Legible.null kept).readsBack_of_step fun bound _ rest _ => value_null rest
  | @bool depth shape b kept =>
    refine (Legible.bool kept).readsBack_of_step fun bound _ rest _ => ?_
    cases b with
    | true => exact value_true kept rest
    | false => exact value_false kept rest
  | @word depth shape n kept bounded =>
    refine (Legible.word kept bounded).readsBack_of_step fun bound _ rest hrest => ?_
    obtain ⟨d, hd, -, tail, htail⟩ := exists_toDigits_eq_cons (by decide : 1 < 10) n
    have hscan := scanNumber_toDigits bounded hrest
    rw [htail, List.cons_append] at hscan
    rw [print, Number.print, htail, List.cons_append, value_digit kept hd, hscan]
    rfl
  | @str depth shape s kept =>
    refine (Legible.str kept).readsBack_of_step fun bound _ rest _ => ?_
    have hquoted : quoted s ++ rest = '"' :: (s.toList.flatMap escape ++ '"' :: rest) := by
      rw [quoted, List.append_assoc]
      rfl
    rw [print, hquoted, value_quote kept, stringFrom_quoted]
    rfl
  | @arr depth shape items kept notOctets members ih =>
    refine (Legible.arr kept notOctets members).readsBack_of_step fun bound hbound rest _ => ?_
    have hprint : print (.arr items) ++ rest = '[' :: (printItems items ++ ']' :: rest) := by
      rw [print, List.append_assoc]
      rfl
    rw [hprint]
    cases items with
    | nil => exact value_bracket kept notOctets _
    | cons item items =>
      rw [print, List.length_append, List.length_cons] at hbound
      rw [value_printItems kept notOctets (members 0 item rfl),
        items_printItems (List.cons_ne_nil _ _) ?_ (by omega)]
      · rfl
      · intro i item h
        rw [Nat.zero_add]
        exact ih i item h
  | @obj depth shape fields kept members ih =>
    refine (Legible.obj kept members).readsBack_of_step fun bound hbound rest _ => ?_
    have hprint : print (.obj fields) ++ rest =
        '\x7b' :: (printFields fields ++ '\x7d' :: rest) := by
      rw [print, List.append_assoc]
      rfl
    rw [hprint]
    cases fields with
    | nil => exact value_brace kept _
    | cons field fields =>
      rw [print, List.length_append, List.length_cons] at hbound
      rw [value_printFields kept, fields_printFields (List.cons_ne_nil _ _) kept ih (by omega)]
      rfl

end values

/-- The text of a value is read back if all of the value is asked for. -/
theorem Legible.parse?_render {shape : Shape} {j : Json} (h : Legible deepest shape j) :
    parse? shape (render j) = some j := by
  have hread : read? shape (print j) = some (j, []) := by
    have hvalue := h.readsBack (2 * (print j).length + 2) (by omega) [] ends_nil
    rwa [List.append_nil] at hvalue
  rw [parse?, render, String.toList_ofList, hread]
  rfl

end ExecutionNode.Json
