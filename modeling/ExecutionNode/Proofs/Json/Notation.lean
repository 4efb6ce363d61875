import ExecutionNode.Proofs.Json.Scalars

/-!
# The notations of a value

A number may stand as a plain number or as a text of digits, decimal or hexadecimal, and an octet
as two digits in either case.  The relations here say what such a notation stands for, by the
place values of its digits, and each decoder reads every notation of its value.

* `Spells` is the number that digits of a radix write, zeros in front included; `Numeral` adds the
  marker of the radix.
* `Numbered` and `Octets` are the notations of numbers and of byte strings.
* `Holds`, `Missing`, `Allowed` and `Optional` say how a field stands in an object, wherever it
  stands there and whatever stands beside it.
-/

namespace ExecutionNode

namespace Quantity

/-! ### Digits -/

/-- The digits of a radix, in either case. -/
inductive Digit (radix : Nat) : Nat → Char → Prop where
  /-- In lower case. -/
  | lower {d : Nat} (small : d < radix) : Digit radix d d.digitChar
  /-- In upper case. -/
  | upper {d : Nat} (small : d < radix) : Digit radix d d.digitChar.toUpper

/-- The number that digits write, of which the last one counts once. -/
inductive Spells (radix : Nat) : Nat → List Char → Prop where
  /-- One digit. -/
  | single {d : Nat} {c : Char} (digit : Digit radix d c) : Spells radix d [c]
  /-- One digit more. -/
  | snoc {n d : Nat} {cs : List Char} {c : Char} (before : Spells radix n cs)
      (digit : Digit radix d c) : Spells radix (n * radix + d) (cs ++ [c])

/-- The notations of a number as a text. -/
inductive Numeral (n : Nat) : List Char → Prop where
  /-- Decimal digits. -/
  | decimal {cs : List Char} (digits : Spells 10 n cs) : Numeral n cs
  /-- Hexadecimal digits behind a marker in lower case. -/
  | lower {cs : List Char} (digits : Spells 16 n cs) : Numeral n ('0' :: 'x' :: cs)
  /-- Hexadecimal digits behind a marker in upper case. -/
  | upper {cs : List Char} (digits : Spells 16 n cs) : Numeral n ('0' :: 'X' :: cs)

/-- A digit is read as its value. -/
theorem Digit.digitValue?_eq {radix d : Nat} {c : Char} (h : Digit radix d c)
    (hradix : radix = 10 ∨ radix = 16) : Hex.digitValue? radix c = some d := by
  have hten : ∀ d < 10, Hex.digitValue? 10 d.digitChar = some d ∧
      Hex.digitValue? 10 d.digitChar.toUpper = some d := by decide
  have hsixteen : ∀ d < 16, Hex.digitValue? 16 d.digitChar = some d ∧
      Hex.digitValue? 16 d.digitChar.toUpper = some d := by decide
  rcases hradix with rfl | rfl <;> cases h with
  | lower small => first | exact (hten d small).1 | exact (hsixteen d small).1
  | upper small => first | exact (hten d small).2 | exact (hsixteen d small).2

/-- A digit is no mark that a reader of digits looks for. -/
theorem Digit.ne_marks {radix d : Nat} {c : Char} (h : Digit radix d c) (hradix : radix ≤ 16) :
    c ≠ '_' ∧ c ≠ '+' ∧ c ≠ 'x' ∧ c ≠ 'X' := by
  have hmarks : ∀ d < 16, (d.digitChar ≠ '_' ∧ d.digitChar ≠ '+' ∧ d.digitChar ≠ 'x' ∧
      d.digitChar ≠ 'X') ∧ d.digitChar.toUpper ≠ '_' ∧ d.digitChar.toUpper ≠ '+' ∧
      d.digitChar.toUpper ≠ 'x' ∧ d.digitChar.toUpper ≠ 'X' := by decide
  cases h with
  | lower small => exact (hmarks d (by omega)).1
  | upper small => exact (hmarks d (by omega)).2

/-- A decimal digit is no marker of another radix. -/
theorem Digit.ne_markers {d : Nat} {c : Char} (h : Digit 10 d c) :
    c ≠ 'o' ∧ c ≠ 'O' ∧ c ≠ 'b' ∧ c ≠ 'B' := by
  have hmarkers : ∀ d < 10, (d.digitChar ≠ 'o' ∧ d.digitChar ≠ 'O' ∧ d.digitChar ≠ 'b' ∧
      d.digitChar ≠ 'B') ∧ d.digitChar.toUpper ≠ 'o' ∧ d.digitChar.toUpper ≠ 'O' ∧
      d.digitChar.toUpper ≠ 'b' ∧ d.digitChar.toUpper ≠ 'B' := by decide
  cases h with
  | lower small => exact (hmarkers d small).1
  | upper small => exact (hmarkers d small).2

/-! ### Numbers -/

variable {radix n : Nat} {cs : List Char}

theorem Spells.forall_digit (h : Spells radix n cs) : ∀ c ∈ cs, ∃ d, Digit radix d c := by
  induction h with
  | single digit => exact fun c hc => ⟨_, List.mem_singleton.mp hc ▸ digit⟩
  | snoc _ digit ih =>
    exact List.forall_mem_append.mpr ⟨ih, fun c hc => ⟨_, List.mem_singleton.mp hc ▸ digit⟩⟩

theorem Spells.exists_eq_cons (h : Spells radix n cs) :
    ∃ d c rest, Digit radix d c ∧ cs = c :: rest := by
  have hne : cs ≠ [] := by cases h <;> simp
  obtain ⟨c, rest, rfl⟩ := List.exists_cons_of_ne_nil hne
  obtain ⟨d, hd⟩ := h.forall_digit c List.mem_cons_self
  exact ⟨d, c, rest, hd, rfl⟩

/-- The digits of a number write it. -/
theorem spells_toDigits (hradix : 1 < radix) (n : Nat) : Spells radix n (Nat.toDigits radix n) := by
  induction n using Nat.strongRecOn with
  | _ n ih =>
    by_cases h : n < radix
    · rw [Nat.toDigits_of_lt_base h]
      exact .single (.lower h)
    · have hvalue : n / radix * radix + n % radix = n := Nat.div_add_mod' n radix
      rw [Nat.toDigits_of_base_le hradix (by omega)]
      have hsnoc := (ih (n / radix) (Nat.div_lt_self (by omega) hradix)).snoc
        (.lower (Nat.mod_lt n (by omega)))
      rwa [hvalue] at hsnoc

/-- A zero in front does not count. -/
theorem Spells.zero_cons (h : Spells radix n cs) : Spells radix n ('0' :: cs) := by
  have hpos : 0 < radix := by
    obtain ⟨d, c, rest, hd, -⟩ := h.exists_eq_cons
    cases hd <;> omega
  induction h with
  | @single d c digit =>
    have hzero : Spells radix 0 ['0'] := .single (.lower hpos)
    have hsnoc := hzero.snoc digit
    rwa [Nat.zero_mul, Nat.zero_add] at hsnoc
  | snoc _ digit ih => exact ih.snoc digit

/-- A reader that takes in digits one by one, as long as the number stays below a bound, takes in
the digits of every number below the bound. -/
theorem Spells.read {β : Type} (h : Spells radix n cs) (read : Nat → List Char → β) {bound : Nat}
    (hread : ∀ d c, Digit radix d c → ∀ value, value * radix + d < bound → ∀ rest,
      read value (c :: rest) = read (value * radix + d) rest)
    (hn : n < bound) (rest : List Char) : read 0 (cs ++ rest) = read n rest := by
  induction h generalizing rest with
  | single digit =>
    rw [List.singleton_append, hread _ _ digit 0 (by omega), Nat.zero_mul, Nat.zero_add]
  | @snoc n d cs c before digit ih =>
    have hle : n ≤ n * radix := Nat.le_mul_of_pos_right n (by cases digit <;> omega)
    rw [List.append_assoc, List.singleton_append, ih (by omega), hread _ _ digit n hn]

/-- The digits of a word are read. -/
theorem Spells.digits_eq (h : Spells radix n cs) (hradix : radix = 10 ∨ radix = 16)
    (hn : n < UInt64.size) : digits radix 0 cs = .ok n := by
  have hread := h.read (digits radix) (fun d c hd value hbound rest => ?_) hn []
  · rw [← List.append_nil cs, hread, digits]
  · rw [digits, hd.digitValue?_eq hradix]
    exact if_pos hbound

/-- Digits carry no sign. -/
theorem Spells.unsigned_eq_digits (h : Spells radix n cs) (hradix : radix ≤ 16) :
    unsigned radix cs = digits radix 0 cs := by
  obtain ⟨d, c, rest, hd, rfl⟩ := h.exists_eq_cons
  have hplus := (hd.ne_marks hradix).2.1
  rw [unsigned]
  · exact fun heq => List.cons_ne_nil _ _ heq
  · exact fun heq => hplus (List.head_eq_of_cons_eq heq)
  · exact fun _ heq => hplus (List.head_eq_of_cons_eq heq)

/-- The digits of a word are read where a sign may stand. -/
theorem Spells.unsigned_eq (h : Spells radix n cs) (hradix : radix = 10 ∨ radix = 16)
    (hn : n < UInt64.size) : unsigned radix cs = .ok n := by
  rw [h.unsigned_eq_digits (by omega), h.digits_eq hradix hn]

/-- The digits of a wide number are read. -/
theorem Spells.spacedDigits_eq (h : Spells radix n cs) (hradix : radix = 10 ∨ radix = 16)
    {bound : Nat} (hn : n < bound) : spacedDigits radix bound 0 cs = some n := by
  have hread := h.read (spacedDigits radix bound) (fun d c hd value hbound rest => ?_) hn []
  · rw [← List.append_nil cs, hread, spacedDigits]
  · rw [spacedDigits, hd.digitValue?_eq hradix]
    · exact if_pos hbound
    · exact (hd.ne_marks (by omega)).1

/-- Decimal digits begin with no marker. -/
theorem Spells.unmarked (h : Spells 10 n cs) :
    Hex.marked? cs = none ∧ radixOf cs = (10, cs) := by
  have hmark : ∀ c ∈ cs, c ∉ ['x', 'X', 'o', 'O', 'b', 'B'] := by
    intro c hc
    obtain ⟨d, hd⟩ := h.forall_digit c hc
    obtain ⟨-, -, hx, hX⟩ := hd.ne_marks (by decide)
    obtain ⟨ho, hO, hb, hB⟩ := hd.ne_markers
    simp [hx, hX, ho, hO, hb, hB]
  clear h
  constructor
  · unfold Hex.marked?
    split
    · exact absurd (by decide) (hmark 'x' (by simp))
    · exact absurd (by decide) (hmark 'X' (by simp))
    · rfl
  · unfold radixOf
    split
    · exact absurd (by decide) (hmark 'x' (by simp))
    · exact absurd (by decide) (hmark 'X' (by simp))
    · exact absurd (by decide) (hmark 'o' (by simp))
    · exact absurd (by decide) (hmark 'O' (by simp))
    · exact absurd (by decide) (hmark 'b' (by simp))
    · exact absurd (by decide) (hmark 'B' (by simp))
    · rfl

/-- **A word is read from each of its notations.** -/
theorem Numeral.parse_eq (h : Numeral n cs) (hn : n < UInt64.size) : parse cs = .ok n := by
  cases h with
  | decimal digits => rw [parse, digits.unmarked.1, digits.unsigned_eq (.inl rfl) hn]
  | lower digits => exact digits.unsigned_eq (.inr rfl) hn
  | upper digits => exact digits.unsigned_eq (.inr rfl) hn

/-- **A wide number is read from each of its notations.** -/
theorem Numeral.wide?_eq {bits : Nat} {s : String} (h : Numeral n s.toList)
    (hn : n < Nat.pow 2 bits) : wide? bits s = some n := by
  rw [wide?]
  generalize s.toList = cs at h
  cases h with
  | decimal digits =>
    rw [digits.unmarked.2]
    exact digits.spacedDigits_eq (.inl rfl) hn
  | lower digits => exact digits.spacedDigits_eq (.inr rfl) hn
  | upper digits => exact digits.spacedDigits_eq (.inr rfl) hn

end Quantity

/-! ### Byte strings -/

open Quantity (Digit Numeral)

/-- The two digits of each octet. -/
inductive Hex.Pairs : Bytes → List Char → Prop where
  /-- None are left. -/
  | nil : Pairs [] []
  /-- One octet more. -/
  | cons {b : UInt8} {bytes : Bytes} {high low : Char} {cs : List Char}
      (first : Digit 16 (b.toNat / 16) high) (second : Digit 16 (b.toNat % 16) low)
      (rest : Pairs bytes cs) : Pairs (b :: bytes) (high :: low :: cs)

namespace Hex.Pairs

variable {bytes : Bytes} {cs : List Char}

/-- The digits that are written are the octets'. -/
theorem encode (bytes : Bytes) : Pairs bytes (Hex.encode bytes) := by
  have hdigit : ∀ d < 16, Digit 16 d (Hex.digit d) := by
    intro d hd
    have heq : Hex.digit d = d.digitChar := by
      interval_cases d <;> rfl
    exact heq ▸ .lower hd
  induction bytes with
  | nil => exact .nil
  | cons b bytes ih =>
    have hb := b.toNat_lt
    exact .cons (hdigit _ (by omega)) (hdigit _ (by omega)) ih

/-- Digits are read behind the octets that were read before. -/
theorem decodeFrom_eq (h : Pairs bytes cs) (read : Bytes) :
    Hex.decodeFrom read cs = some (read.reverse ++ bytes) := by
  induction h generalizing read with
  | nil => rw [Hex.decodeFrom, List.append_nil]
  | @cons b bytes high low cs first second _ ih =>
    have hoctet : UInt8.ofNat (b.toNat / 16 * 16 + b.toNat % 16) = b := by
      rw [Nat.div_add_mod']
      exact UInt8.ofNat_toNat
    rw [Hex.decodeFrom, first.digitValue?_eq (.inr rfl), second.digitValue?_eq (.inr rfl)]
    dsimp only
    rw [hoctet, ih, List.reverse_cons, List.append_assoc, List.singleton_append]

/-- Digits begin with no marker. -/
theorem marked?_eq (h : Pairs bytes cs) : Hex.marked? cs = none := by
  cases h with
  | nil => rfl
  | cons _ second _ =>
    obtain ⟨-, -, hx, hX⟩ := second.ne_marks (Nat.le_refl 16)
    unfold Hex.marked?
    split
    next heq => exact absurd (List.head_eq_of_cons_eq (List.tail_eq_of_cons_eq heq)) hx
    next heq => exact absurd (List.head_eq_of_cons_eq (List.tail_eq_of_cons_eq heq)) hX
    next => rfl

end Hex.Pairs

namespace Json

/-! ### The notations of scalars -/

/-- The notations of a number. -/
inductive Numbered (n : Nat) : Json → Prop where
  /-- A plain number that is a word. -/
  | number (bounded : n < UInt64.size) : Numbered n (.num (.natural n))
  /-- A text. -/
  | text {s : String} (numeral : Numeral n s.toList) : Numbered n (.str s)

/-- The notations of a byte string: digits, with a marker in front or without. -/
inductive Octets (bytes : Bytes) : Json → Prop where
  /-- Without a marker. -/
  | bare {s : String} (pairs : Hex.Pairs bytes s.toList) : Octets bytes (.str s)
  /-- With a marker in lower case. -/
  | lower {s : String} {cs : List Char} (marked : s.toList = '0' :: 'x' :: cs)
      (pairs : Hex.Pairs bytes cs) : Octets bytes (.str s)
  /-- With a marker in upper case. -/
  | upper {s : String} {cs : List Char} (marked : s.toList = '0' :: 'X' :: cs)
      (pairs : Hex.Pairs bytes cs) : Octets bytes (.str s)

/-- The text that is written is one of them. -/
theorem octets_ofBytes (bytes : Bytes) : Octets bytes (ofBytes bytes) :=
  .lower (String.toList_ofList) (Hex.Pairs.encode bytes)

theorem octets_ofFixed {n : Nat} (b : FixedBytes n) : Octets b.toList (ofFixed b) :=
  octets_ofBytes b.toList

/-- A word is read from each of its notations. -/
theorem Numbered.quantity?_eq {n : UInt64} {j : Json} (h : Numbered n.toNat j) :
    quantity? j = some n := by
  cases h with
  | number bounded =>
    rw [quantity?, uint64?, if_pos bounded, UInt64.ofNat_toNat]
    rintro _ ⟨⟩
  | text numeral =>
    rw [quantity?, Quantity.parseUInt64, numeral.parse_eq n.toNat_lt]
    exact congrArg some UInt64.ofNat_toNat

/-- A number of so many bits is read from each of its notations. -/
theorem Numbered.wide?_eq {bits n : Nat} {j : Json} (h : Numbered n j) (hn : n < Nat.pow 2 bits) :
    wide? bits j = some n := by
  cases h with
  | number bounded => exact if_pos ⟨bounded, hn⟩
  | text numeral => exact numeral.wide?_eq hn

theorem Numbered.wideUInt64?_eq {n : UInt64} {j : Json} (h : Numbered n.toNat j) :
    wideUInt64? j = some n := by
  rw [wideUInt64?, h.wide?_eq n.toNat_lt, Option.map_some, UInt64.ofNat_toNat]

theorem Numbered.uint256?_eq {n : U256} {j : Json} (h : Numbered n.toNat j) :
    uint256? j = some n := by
  rw [uint256?, h.wide?_eq n.isLt, Option.map_some, BitVec.ofNat_toNat, BitVec.setWidth_eq]

/-- A byte string is read from each of its notations. -/
theorem Octets.bytes?_eq {bytes : Bytes} {j : Json} (h : Octets bytes j) :
    bytes? j = some bytes := by
  cases h with
  | bare pairs =>
    rw [bytes?, Hex.bytes?, Hex.unmarked, pairs.marked?_eq]
    exact pairs.decodeFrom_eq []
  | lower marked pairs =>
    rw [bytes?, Hex.bytes?, marked]
    exact pairs.decodeFrom_eq []
  | upper marked pairs =>
    rw [bytes?, Hex.bytes?, marked]
    exact pairs.decodeFrom_eq []

theorem Octets.fixed?_eq {n : Nat} {b : FixedBytes n} {j : Json} (h : Octets b.toList j) :
    fixed? n j = some b := by
  have hbytes := h.bytes?_eq
  have harr : ∀ items, j ≠ .arr items := by cases h <;> nofun
  rw [fixed?, hbytes]
  · exact FixedBytes.ofList?_toList b
  · exact harr

/-- A notation is not null. -/
theorem Octets.ne_null {bytes : Bytes} {j : Json} (h : Octets bytes j) : j ≠ .null := by
  cases h <;> nofun

/-! ### The notations of fields -/

section fields

variable {α : Type} {fields : List (String × Json)} {name : String}

/-- No known field stands twice. -/
def Once (names : List String) (fields : List (String × Json)) : Prop :=
  ∀ name ∈ names, (fields.filter (·.1 = name)).length ≤ 1

/-- A field is there, with a value of a kind. -/
def Holds (fields : List (String × Json)) (name : String) (Noted : Json → Prop) : Prop :=
  ∃ j, (name, j) ∈ fields ∧ Noted j

/-- A field is not there. -/
def Missing (fields : List (String × Json)) (name : String) : Prop := ∀ j, (name, j) ∉ fields

/-- A field is missing if its name is none of the names. -/
theorem missing_of_notMem (h : name ∉ fields.map (·.1)) : Missing fields name :=
  fun _ hmem => h (List.mem_map_of_mem hmem)

/-- A field is there with a value of a kind, or is left out where that is allowed. -/
def Allowed (fields : List (String × Json)) (name : String) (Noted : Json → Prop)
    (allowed : Prop) : Prop :=
  Holds fields name Noted ∨ (allowed ∧ Missing fields name)

/-- A field is there with a notation of the value, or is left out or null if there is none. -/
def Optional (fields : List (String × Json)) (name : String) (Noted : α → Json → Prop) :
    Option α → Prop
  | some a => Holds fields name (Noted a)
  | none => Missing fields name ∨ Holds fields name (· = .null)

/-- The notations of an array: the members in their order, each in a notation of its own. -/
def Listed (Noted : α → Json → Prop) (members : List α) (j : Json) : Prop :=
  ∃ items, j = .arr items ∧ List.Forall₂ Noted members items

/-- An array is read if each member is. -/
theorem Listed.list?_eq {Noted : α → Json → Prop} {members : List α} {j : Json}
    (h : Listed Noted members j) {decoder : Decoder α}
    (hread : ∀ a j, Noted a j → decoder j = some a) : list? decoder j = some members := by
  obtain ⟨items, rfl, hitems⟩ := h
  rw [list?]
  induction hitems with
  | nil => rfl
  | cons hfirst _ ih => simp [hread _ _ hfirst, ih]

/-- An object in which no known field stands twice is read as a record of its fields. -/
theorem Once.recordOf?_eq {names : List String} (h : Once names fields) :
    recordOf? names (.obj fields) = some (.ofFields fields) := by
  have hdistinct : distinctFields names fields = true := by
    rw [distinctFields, List.all_eq_true]
    exact fun name hname => decide_eq_true (h name hname)
  rw [recordOf?, hdistinct]
  rfl

/-- The value of a field that stands once is found, wherever it stands. -/
theorem Once.slot_eq {names : List String} (h : Once names fields) (hname : name ∈ names) {j : Json}
    (hmem : (name, j) ∈ fields) : (Record.ofFields fields).slot name = .given j := by
  have hlength := h name hname
  have hfilter : (name, j) ∈ fields.filter (·.1 = name) :=
    List.mem_filter.mpr ⟨hmem, decide_eq_true rfl⟩
  obtain ⟨field, hone⟩ : ∃ field, fields.filter (·.1 = name) = [field] :=
    List.length_eq_one_iff.mp (Nat.le_antisymm hlength (List.length_pos_of_mem hfilter))
  obtain rfl := List.mem_singleton.mp (hone ▸ hfilter)
  have hfind : fields.find? (·.1 = name) = some (name, j) := by
    rw [← List.head?_filter, hone, List.head?_cons]
  simp only [Record.ofFields, hfind]

/-- A field that is not there has no name in the record. -/
theorem Missing.slot_eq (h : Missing fields name) :
    (Record.ofFields fields).slot name = .unnamed := by
  have hnone : fields.find? (·.1 = name) = none := by
    rw [List.find?_eq_none]
    rintro ⟨other, j⟩ hmem hother
    exact h j (of_decide_eq_true hother ▸ hmem)
  simp only [Record.ofFields, hnone]

variable {names : List String} {Noted : Json → Prop} {decoder : Decoder α}

/-- A field that has to be there is read. -/
theorem Holds.required_eq (h : Holds fields name Noted) (honce : Once names fields)
    (hname : name ∈ names) {a : α} (hread : ∀ j, Noted j → decoder j = some a) :
    (Record.ofFields fields).required name decoder = some a := by
  obtain ⟨j, hmem, hj⟩ := h
  rw [Record.required, honce.slot_eq hname hmem]
  exact hread j hj

/-- A field that may be left out for a value of its own is read. -/
theorem Allowed.orElse_eq {a absent : α} (h : Allowed fields name Noted (a = absent))
    (honce : Once names fields) (hname : name ∈ names)
    (hread : ∀ j, Noted j → decoder j = some a) :
    (Record.ofFields fields).orElse name decoder absent = some a := by
  rcases h with ⟨j, hmem, hj⟩ | ⟨rfl, hmissing⟩
  · rw [Record.orElse, honce.slot_eq hname hmem]
    exact hread j hj
  · rw [Record.orElse, hmissing.slot_eq]

/-- A field that may be left out or null is read. -/
theorem Optional.nullable_eq {Noted : α → Json → Prop} {a : Option α}
    (h : Optional fields name Noted a) (honce : Once names fields) (hname : name ∈ names)
    (hnull : ∀ a j, Noted a j → j ≠ .null) (hread : ∀ a j, Noted a j → decoder j = some a) :
    (Record.ofFields fields).nullable name decoder = some a := by
  rw [Record.nullable, Record.orElse]
  cases a with
  | some a =>
    obtain ⟨j, hmem, hj⟩ := h
    rw [honce.slot_eq hname hmem]
    dsimp only
    rw [nullable?, hread a j hj, Option.map_some]
    exact hnull a j hj
  | none =>
    rcases h with hmissing | ⟨_, hmem, rfl⟩
    · rw [hmissing.slot_eq]
    · rw [honce.slot_eq hname hmem]
      rfl

end fields

end Json

end ExecutionNode
