import ExecutionNode.Json.Decoder
import Mathlib.Tactic.IntervalCases

/-!
# Scalars that are written and read again

A scalar of the engine interface is written in one of three notations: a byte string as pairs of
hexadecimal digits, a word as a quantity text, a word as a plain number.  Each is read back by
every decoder that the interface uses for it.

* `span_append` says where characters of one kind, such as digits, are over.
* `Hex.bytes?_text` reads pairs of digits back.
* `read_toDigits` is the induction for numbers, in which all digits but the last write the quotient.
  It does for both readers of quantity texts (`parseUInt64_text` and `wide?_quantity`).
* The decoders of scalars follow, and those of containers given that the decoder of a member does
  (`nullable?_ofOption`, `list?_arr`).
-/

namespace ExecutionNode

/-! ### Characters of one kind -/

/-- Characters of one kind are taken from a text up to the first that is of another kind. -/
theorem span_append {kind : Char → Bool} {cs rest : List Char} (hcs : ∀ c ∈ cs, kind c = true)
    (hrest : ∀ c ∈ rest.head?, kind c = false) :
    (cs ++ rest).takeWhile kind = cs ∧ (cs ++ rest).dropWhile kind = rest := by
  have hstop : rest.takeWhile kind = [] ∧ rest.dropWhile kind = rest := by
    cases rest with
    | nil => exact ⟨rfl, rfl⟩
    | cons c rest => simp [hrest c rfl]
  rw [List.takeWhile_append_of_pos hcs, List.dropWhile_append_of_pos hcs, hstop.1, hstop.2,
    List.append_nil]
  exact ⟨rfl, rfl⟩

/-! ### Byte strings -/

theorem Hex.digitValue?_digit : ∀ d < 16, Hex.digitValue? 16 (Hex.digit d) = some d := by decide

/-- The digits of octets are read back behind the octets that were read before. -/
theorem Hex.decodeFrom_encode (bytes read : Bytes) :
    Hex.decodeFrom read (Hex.encode bytes) = some (read.reverse ++ bytes) := by
  induction bytes generalizing read with
  | nil => simp [Hex.encode, Hex.decodeFrom]
  | cons b bytes ih =>
    have hhigh := Hex.digitValue?_digit (b.toNat / 16) (by have := b.toNat_lt; omega)
    have hlow := Hex.digitValue?_digit (b.toNat % 16) (Nat.mod_lt _ (by decide))
    have hoctet : UInt8.ofNat (b.toNat / 16 * 16 + b.toNat % 16) = b := by
      rw [Nat.div_add_mod']
      exact UInt8.ofNat_toNat
    have hencode : Hex.encode (b :: bytes) =
        Hex.digit (b.toNat / 16) :: Hex.digit (b.toNat % 16) :: Hex.encode bytes := rfl
    rw [hencode, Hex.decodeFrom, hhigh, hlow]
    dsimp only
    rw [hoctet, ih]
    simp

/-- A byte string is read back from its text. -/
@[simp] theorem Hex.bytes?_text (bytes : Bytes) : Hex.bytes? (Hex.text bytes) = some bytes := by
  rw [Hex.bytes?, Hex.text, String.toList_ofList]
  exact Hex.decodeFrom_encode bytes []

/-! ### Numbers -/

theorem Hex.digitValue?_digitChar : ∀ d < 16, Hex.digitValue? 16 d.digitChar = some d := by decide

/-- A digit of a number is no mark that a reader of digits looks for. -/
theorem digitChar_ne_marks : ∀ d < 16, d.digitChar ≠ '_' ∧ d.digitChar ≠ '+' := by decide

/-- The first digit of a number, which is zero only for zero. -/
theorem exists_toDigits_eq_cons {base : Nat} (hbase : 1 < base) (n : Nat) :
    ∃ d < base, (d = 0 → n = 0) ∧ ∃ rest, Nat.toDigits base n = d.digitChar :: rest := by
  induction n using Nat.strongRecOn with
  | _ n ih =>
    by_cases h : n < base
    · exact ⟨n, h, id, [], Nat.toDigits_of_lt_base h⟩
    · obtain ⟨d, hd, hzero, rest, hrest⟩ := ih (n / base) (Nat.div_lt_self (by omega) hbase)
      refine ⟨d, hd, fun hd => ?_, rest ++ [(n % base).digitChar], ?_⟩
      · exact absurd (hzero hd) (Nat.div_pos (by omega) (by omega)).ne'
      · rw [Nat.toDigits_of_base_le hbase (by omega), hrest, List.cons_append]

/-- A reader that takes in digits one by one, as long as the number stays below a bound, takes in
the digits of every number below the bound. -/
theorem read_toDigits {β : Type} (read : Nat → List Char → β) {bound : Nat}
    (hread : ∀ d < 16, ∀ value, value * 16 + d < bound → ∀ rest,
      read value (d.digitChar :: rest) = read (value * 16 + d) rest)
    {n : Nat} (h : n < bound) (rest : List Char) :
    read 0 (Nat.toDigits 16 n ++ rest) = read n rest := by
  induction n using Nat.strongRecOn generalizing rest with
  | _ n ih =>
    by_cases hlast : n < 16
    · rw [Nat.toDigits_of_lt_base hlast, List.singleton_append, hread n hlast 0 (by omega),
        Nat.zero_mul, Nat.zero_add]
    · have hvalue : n / 16 * 16 + n % 16 = n := Nat.div_add_mod' n 16
      rw [Nat.toDigits_of_base_le (by decide) (by omega), List.append_assoc,
        List.singleton_append, ih (n / 16) (by omega) (by omega),
        hread _ (Nat.mod_lt _ (by decide)) _ (by omega), hvalue]

namespace Quantity

/-- The digits of a quantity are read back. -/
theorem digits_toDigits {n : Nat} (h : n < UInt64.size) :
    digits 16 0 (Nat.toDigits 16 n) = .ok n := by
  rw [← List.append_nil (Nat.toDigits 16 n), read_toDigits (digits 16) ?_ h, digits]
  intro d hd value hbound rest
  rw [digits, Hex.digitValue?_digitChar d hd]
  exact if_pos hbound

/-- The digits of a number carry no sign. -/
theorem unsigned_toDigits (n : Nat) :
    unsigned 16 (Nat.toDigits 16 n) = digits 16 0 (Nat.toDigits 16 n) := by
  obtain ⟨d, hd, -, rest, hrest⟩ := exists_toDigits_eq_cons (by decide : 1 < 16) n
  have hsign := (digitChar_ne_marks d hd).2
  rw [hrest, unsigned]
  · nofun
  · exact fun hplus => hsign (List.head_eq_of_cons_eq hplus)
  · exact fun _ hplus => hsign (List.head_eq_of_cons_eq hplus)

/-- A quantity is read back from its text. -/
@[simp] theorem parseUInt64_text (n : UInt64) : parseUInt64 (text n) = .ok n := by
  rw [parseUInt64, text, Hex.quantity, String.toList_ofList, parse, Hex.marked?]
  dsimp only
  rw [unsigned_toDigits, digits_toDigits n.toNat_lt]
  exact congrArg Except.ok UInt64.ofNat_toNat

/-- A wide number is read back from its quantity text. -/
theorem wide?_quantity {bits n : Nat} (h : n < Nat.pow 2 bits) :
    wide? bits (Hex.quantity n) = some n := by
  rw [wide?, Hex.quantity, String.toList_ofList, radixOf]
  dsimp only
  rw [← List.append_nil (Nat.toDigits 16 n),
    read_toDigits (spacedDigits 16 (Nat.pow 2 bits)) ?_ h, spacedDigits]
  intro d hd value hbound rest
  rw [spacedDigits, Hex.digitValue?_digitChar d hd]
  · exact if_pos hbound
  · exact (digitChar_ne_marks d hd).1

end Quantity

namespace Json

/-! ### The decoders of scalars -/

@[simp] theorem fixed?_ofFixed {n : Nat} (b : FixedBytes n) : fixed? n (ofFixed b) = some b := by
  rw [ofFixed, fixed?, bytes?, FixedBytes.text, Hex.bytes?_text]
  · exact FixedBytes.ofList?_toList b
  · nofun

@[simp] theorem bytes?_ofBytes (b : Bytes) : bytes? (ofBytes b) = some b := Hex.bytes?_text b

@[simp] theorem quantity?_ofQuantity (n : UInt64) : quantity? (ofQuantity n) = some n := by
  rw [ofQuantity, quantity?, Quantity.parseUInt64_text]
  rfl

@[simp] theorem wideUInt64?_ofQuantity (n : UInt64) : wideUInt64? (ofQuantity n) = some n := by
  rw [wideUInt64?, ofQuantity, wide?, Quantity.text, Quantity.wide?_quantity n.toNat_lt,
    Option.map_some, UInt64.ofNat_toNat]

@[simp] theorem uint256?_ofUInt256 (n : U256) : uint256? (ofUInt256 n) = some n := by
  rw [uint256?, ofUInt256, wide?, Quantity.wide?_quantity n.isLt, Option.map_some,
    BitVec.ofNat_toNat, BitVec.setWidth_eq]

@[simp] theorem uint64?_ofUInt64 (n : UInt64) : uint64? (ofUInt64 n) = some n := by
  rw [ofUInt64, ofNat, uint64?, if_pos n.toNat_lt, UInt64.ofNat_toNat]

/-! ### The decoders of containers -/

/-- A value that may be null is read back if it is never written as null. -/
theorem nullable?_ofOption {α : Type} {decoder : Decoder α} {write : α → Json}
    (hwrite : ∀ a, write a ≠ .null) (hread : ∀ a, decoder (write a) = some a) (a : Option α) :
    nullable? decoder (ofOption write a) = some a := by
  cases a with
  | none => rfl
  | some a => rw [ofOption, nullable?, hread, Option.map_some]; exact hwrite a

/-- An array is read back if its members are. -/
theorem list?_arr {α : Type} {decoder : Decoder α} {write : α → Json}
    (hread : ∀ a, decoder (write a) = some a) (l : List α) :
    list? decoder (.arr (l.map write)) = some l := by
  rw [list?]
  induction l with
  | nil => rfl
  | cons a l ih => simp [hread, ih]

end Json

end ExecutionNode
