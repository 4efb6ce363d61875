import ExecutionNode.Proofs.Json.Notation
import Mathlib.Data.List.Forall2
import Mathlib.Data.Nat.Digits.Defs

/-!
# Quantities are read exactly

A quantity text has three parts: a marker, which chooses the radix, a sign, and the digits.  The
marker and the sign may be missing, a digit may not.  `Denotes` says what number such a text stands
for by the places of its digits, with no bound on how many there are; the reader goes over them
from the left and gives up as soon as the number no longer is a word.  That loses nothing, since a
number never shrinks when digits are added to it.

* `spells_iff_ofDigits`: what digits spell is the sum of their values, each at its place.
* `Spells.digits_append`: digits are read as what they spell, or refused as too large.
* `Spells.of_digits`: nothing else is read as digits.
* `parse_eq_of_denotes`, `denotes_of_parse`: the same for texts with their marker and their sign.
* `words_read_exactly`: which texts are read as a word, and as which.
-/

namespace ExecutionNode.Quantity

variable {radix n d : Nat} {c : Char} {cs : List Char}

/-! ### Digits -/

/-- What is read as a digit is the digit of that value, in one of its cases. -/
theorem Digit.of_digitValue? (h : Hex.digitValue? radix c = some d) : Digit radix d c := by
  have hdecimal : ∀ k < 58, 48 ≤ k → Char.ofNat k = (k - 48).digitChar := by decide
  have hlower : ∀ k < 103, 97 ≤ k → Char.ofNat k = (k - 97 + 10).digitChar := by decide
  have hupper : ∀ k < 71, 65 ≤ k → Char.ofNat k = (k - 65 + 10).digitChar.toUpper := by decide
  obtain ⟨hvalue, hsmall⟩ := Option.filter_eq_some_iff.mp h
  replace hsmall : d < radix := of_decide_eq_true hsmall
  rw [← c.ofNat_toNat]
  split_ifs at hvalue with hc hc hc <;> obtain rfl := Option.some.inj hvalue
  · obtain ⟨hlow, hhigh⟩ : 48 ≤ c.toNat ∧ c.toNat ≤ 57 := hc
    rw [hdecimal _ (by omega) hlow]
    exact .lower hsmall
  · obtain ⟨hlow, hhigh⟩ : 97 ≤ c.toNat ∧ c.toNat ≤ 102 := hc
    rw [hlower _ (by omega) hlow]
    exact .lower hsmall
  · obtain ⟨hlow, hhigh⟩ : 65 ≤ c.toNat ∧ c.toNat ≤ 70 := hc
    rw [hupper _ (by omega) hlow]
    exact .upper hsmall

/-- Digits from the last one on spell what they count at their places. -/
theorem spells_reverse {ds : List Nat} (h : List.Forall₂ (Digit radix) ds cs) (hne : cs ≠ []) :
    Spells radix (Nat.ofDigits radix ds) cs.reverse := by
  induction h with
  | nil => exact absurd rfl hne
  | @cons d c ds cs hd htail ih =>
    rw [Nat.ofDigits_cons, List.reverse_cons]
    by_cases hcs : cs = []
    · subst hcs
      obtain rfl := List.forall₂_nil_right_iff.mp htail
      exact .single hd
    · rw [Nat.add_comm, Nat.mul_comm]
      exact (ih hcs).snoc hd

/-- **What digits spell is the sum of their values, each at its place.** -/
theorem spells_iff_ofDigits : Spells radix n cs ↔
    cs ≠ [] ∧ ∃ ds, List.Forall₂ (Digit radix) ds cs ∧ Nat.ofDigits radix ds.reverse = n := by
  constructor
  · intro h
    induction h with
    | @single d c digit => exact ⟨by simp, [d], by simpa using digit, by simp⟩
    | @snoc n d cs c before digit ih =>
      obtain ⟨-, ds, hds, rfl⟩ := ih
      refine ⟨by simp, ds ++ [d], List.rel_append hds (by simpa using digit), ?_⟩
      rw [List.reverse_append, List.reverse_singleton, List.singleton_append, Nat.ofDigits_cons,
        Nat.add_comm, Nat.mul_comm]
  · rintro ⟨hne, ds, hds, rfl⟩
    have h := spells_reverse (List.forall₂_reverse_iff.mpr hds) (by simpa using hne)
    rwa [List.reverse_reverse] at h

/-- **Digits are read as what they spell, or refused as too large.** The bound is looked at after
every digit, but the number only grows. -/
theorem Spells.digits_append (h : Spells radix n cs) (hradix : radix = 10 ∨ radix = 16)
    (rest : List Char) : digits radix 0 (cs ++ rest) =
      if n < UInt64.size then digits radix n rest else .error .tooLarge := by
  induction h generalizing rest with
  | @single d c digit =>
    rw [List.singleton_append, digits, digit.digitValue?_eq hradix]
    simp
  | @snoc n d cs c before digit ih =>
    have hle : n ≤ n * radix := Nat.le_mul_of_pos_right n (by omega)
    rw [List.append_assoc, List.singleton_append, ih, digits, digit.digitValue?_eq hradix]
    by_cases hn : n < UInt64.size
    · rw [if_pos hn]
    · rw [if_neg hn, if_neg (by omega)]

/-- What is read begins with a digit, and the rest is read onto it. -/
theorem exists_digit_of_digits {value : Nat} (h : digits radix value (c :: cs) = .ok n) :
    ∃ d, Digit radix d c ∧ digits radix (value * radix + d) cs = .ok n := by
  rw [digits] at h
  split at h
  next => cases h
  next d hd =>
    split at h
    next => exact ⟨d, .of_digitValue? hd, h⟩
    next => cases h

/-- What is read behind digits continues what they spell. -/
theorem Spells.append_of_digits {before : List Char} {value : Nat} (h : Spells radix value before)
    (hread : digits radix value cs = .ok n) : Spells radix n (before ++ cs) := by
  induction cs generalizing before value with
  | nil =>
    obtain rfl := Except.ok.inj hread
    rwa [List.append_nil]
  | cons c cs ih =>
    obtain ⟨d, hd, hrest⟩ := exists_digit_of_digits hread
    have hnext := ih (h.snoc hd) hrest
    rwa [List.append_assoc, List.singleton_append] at hnext

/-- **Nothing is read as digits but what spells the number.** -/
theorem Spells.of_digits (hread : digits radix 0 cs = .ok n) (hne : cs ≠ []) :
    Spells radix n cs := by
  obtain ⟨c, rest, rfl⟩ := List.exists_cons_of_ne_nil hne
  obtain ⟨d, hd, hrest⟩ := exists_digit_of_digits hread
  rw [Nat.zero_mul, Nat.zero_add] at hrest
  exact (Spells.single hd).append_of_digits hrest

/-! ### Markers and signs -/

/-- The markers in front of digits, with the radix that each chooses. -/
inductive Marker : Nat → List Char → Prop where
  /-- Without a marker digits are decimal. -/
  | none : Marker 10 []
  /-- A marker in lower case. -/
  | lower : Marker 16 ['0', 'x']
  /-- A marker in upper case. -/
  | upper : Marker 16 ['0', 'X']

/-- The signs in front of digits. -/
inductive Sign : List Char → Prop where
  /-- No sign. -/
  | none : Sign []
  /-- A plus sign. -/
  | plus : Sign ['+']

/-- The texts that denote a number, however large: a marker, a sign, and then at least one digit of
the radix that the marker chooses, in either case, each counting by its place. -/
inductive Denotes (n : Nat) : List Char → Prop where
  /-- The parts one behind the other. -/
  | intro {radix : Nat} {marker sign cs : List Char} {ds : List Nat} (marked : Marker radix marker)
      (signed : Sign sign) (nonempty : cs ≠ []) (digits : List.Forall₂ (Digit radix) ds cs)
      (value : Nat.ofDigits radix ds.reverse = n) : Denotes n (marker ++ (sign ++ cs))

variable {marker sign : List Char}

theorem Marker.radix_eq (h : Marker radix marker) : radix = 10 ∨ radix = 16 := by
  cases h <;> simp

/-- Every text has a marker, be it the one that is missing. -/
theorem exists_marker (cs : List Char) : ∃ radix marker rest, Marker radix marker ∧
    cs = marker ++ rest ∧ parse cs = unsigned radix rest := by
  rcases hmark : Hex.marked? cs with _ | rest
  · exact ⟨10, [], cs, .none, rfl, by rw [parse, hmark]⟩
  · unfold Hex.marked? at hmark
    split at hmark
    next => exact ⟨16, ['0', 'x'], _, .lower, rfl, rfl⟩
    next => exact ⟨16, ['0', 'X'], _, .upper, rfl, rfl⟩
    next => cases hmark

/-- What is read as a number has a sign, be it the one that is missing, and a digit. -/
theorem exists_sign (h : unsigned radix cs = .ok n) : ∃ sign rest, Sign sign ∧
    cs = sign ++ rest ∧ rest ≠ [] ∧ digits radix 0 rest = .ok n := by
  unfold unsigned at h
  split at h
  next => cases h
  next => cases h
  next rest hrest => exact ⟨['+'], rest, .plus, rfl, by simpa using hrest, h⟩
  next hne _ _ => exact ⟨[], cs, .none, rfl, hne, h⟩

/-- The sign in front of digits does not count. -/
theorem Spells.unsigned_append (h : Spells radix n cs) (hradix : radix ≤ 16) (hs : Sign sign) :
    unsigned radix (sign ++ cs) = digits radix 0 cs := by
  cases hs with
  | none => exact h.unsigned_eq_digits hradix
  | plus =>
    obtain ⟨d, c, rest, -, rfl⟩ := h.exists_eq_cons
    rw [List.singleton_append, unsigned]
    exact fun heq => List.cons_ne_nil _ _ heq

/-- Behind its marker a text is read in the marker's radix. -/
theorem Spells.parse_append (h : Spells radix n cs) (hm : Marker radix marker) (hs : Sign sign) :
    parse (marker ++ (sign ++ cs)) = unsigned radix (sign ++ cs) := by
  cases hm with
  | none =>
    have hmark : Hex.marked? (sign ++ cs) = Option.none := by
      cases hs with
      | none => exact h.unmarked.1
      | plus => rfl
    rw [List.nil_append, parse, hmark]
  | lower => rfl
  | upper => rfl

/-- **A text that denotes a number is read as it, or refused as too large.** -/
theorem parse_eq_of_denotes (h : Denotes n cs) :
    parse cs = if n < UInt64.size then .ok n else .error .tooLarge := by
  rcases h with @⟨radix, marker, sign, cs, ds, marked, signed, nonempty, places, value⟩
  have hradix := marked.radix_eq
  have hspells : Spells radix n cs := spells_iff_ofDigits.mpr ⟨nonempty, ds, places, value⟩
  have hread := hspells.digits_append hradix []
  rw [List.append_nil] at hread
  rw [hspells.parse_append marked signed, hspells.unsigned_append (by omega) signed, hread,
    Quantity.digits]

/-- **What is read as a number denotes it.** -/
theorem denotes_of_parse (h : parse cs = .ok n) : Denotes n cs := by
  obtain ⟨radix, marker, rest, marked, rfl, hparse⟩ := exists_marker cs
  obtain ⟨sign, rest, signed, rfl, hne, hread⟩ := exists_sign (hparse.symm.trans h)
  obtain ⟨-, ds, digits, value⟩ := spells_iff_ofDigits.mp (.of_digits hread hne)
  exact .intro marked signed hne digits value

/-- **Exactly the texts that denote a word are read, and as that word.** -/
theorem parse_eq_ok_iff : parse cs = .ok n ↔ n < UInt64.size ∧ Denotes n cs := by
  constructor
  · intro h
    have hdenotes := denotes_of_parse h
    rw [parse_eq_of_denotes hdenotes] at h
    by_cases hn : n < UInt64.size
    · exact ⟨hn, hdenotes⟩
    · rw [if_neg hn] at h
      cases h
  · rintro ⟨hn, hdenotes⟩
    rw [parse_eq_of_denotes hdenotes, if_pos hn]

/-! ### Words -/

/-- A word is read from its decimal digits. -/
theorem parseUInt64_toString (n : UInt64) : parseUInt64 (toString n) = .ok n := by
  have hdigits : (toString n).toList = Nat.toDigits 10 n.toNat := String.toList_ofList
  have hspells : Spells 10 n.toNat (Nat.toDigits 10 n.toNat) := spells_toDigits (by decide) n.toNat
  rw [parseUInt64, hdigits, (Numeral.decimal hspells).parse_eq n.toNat_lt]
  exact congrArg Except.ok UInt64.ofNat_toNat

/-- **A word is read exactly from the texts that denote it.**

* A text is read if it consists of a marker or none, a plus sign or none, and at least one digit of
  the radix, such that the places of the digits count up to less than what a word can hold; and it
  is read as that number. Zeros in front count nothing, however many there are.
* Every other text is refused, also one whose number would be a word again after it went round.
* A word is read from the text that stands for it in messages, and from its decimal digits. -/
theorem words_read_exactly :
    (∀ (s : String) (v : Nat), (parseUInt64 s).map UInt64.toNat = .ok v ↔
      v < UInt64.size ∧ Denotes v s.toList) ∧
    ∀ n : UInt64, Json.ofQuantity n = .str (text n) ∧ parseUInt64 (text n) = .ok n ∧
      parseUInt64 (toString n) = .ok n := by
  refine ⟨fun s v => ?_, fun n => ⟨rfl, parseUInt64_text n, parseUInt64_toString n⟩⟩
  rw [← parse_eq_ok_iff, parseUInt64]
  rcases hparse : parse s.toList with e | m
  · simp [Except.map]
  · have hm : m < UInt64.size := (parse_eq_ok_iff.mp hparse).1
    have hword : (UInt64.ofNat m).toNat = m := UInt64.toNat_ofNat_of_lt hm
    simp only [Except.map, hword]

/-- More digits than any word has, of which all but the last two are zeros in front. -/
example : parseUInt64 "0X+000000000000000000000000000000001a" = .ok 26 := by decide

end ExecutionNode.Quantity
