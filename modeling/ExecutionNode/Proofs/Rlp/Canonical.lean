import ExecutionNode.Proofs.Rlp.Strings
import Mathlib.Data.Nat.Digits.Defs

/-!
# The canonical form, and that nothing else is read

`Item.canonical` is the encoding of a tree as recursive length prefixes are defined: one recursion
over the tree, with lengths as digits to base 256.  It is what `Item.encode` writes.

A reader accepts a byte string exactly if it begins with the encoding of a value, and it takes just
that encoding.  So what follows never matters, and no value is read from two encodings.

* `Item.encode_eq_canonical`: the encoding of a tree is the defined one.
* `string?_eq_some_iff`, `nat?_eq_some_iff`: strings and numbers are read from their encoding only.
* `Reads`: a reader takes exactly the trees of its values; `ReadsFields`: the fields of a record
  behind each other, of which some may be known.
* `ReadsFields.exactly`, `Reads.listOf`: lists of given members and of any number of members.

A marker has room for lengths below 2⁶⁴.  `Item.Fits` says that this is enough for a tree; the
markers inside it then have room as well (`Item.fits_of_mem`).
-/

namespace ExecutionNode.Rlp

/-! ### The definition -/

/-- The digits of a number to base 256, the most significant one first. -/
def digits (n : Nat) : Bytes := (Nat.digits 256 n).reverse.map UInt8.ofNat

theorem minimalBE_eq_digits (n : Nat) : minimalBE n = digits n := by
  induction n using minimalBE.induct with
  | case1 => simp [digits]
  | case2 n h ih =>
    rw [minimalBE_of_ne_zero h, ih, digits, digits,
      Nat.digits_def' (by decide) (Nat.pos_of_ne_zero h), List.reverse_cons, List.map_append,
      List.map_singleton]
    congr 2
    exact UInt8.toNat_inj.mp (by simp)

namespace Item

/-- A payload behind its length. Up to 55 octets the length is part of the first octet, which
counts from `base`; otherwise the first octet tells how many digits the length has. -/
def announce (base : Nat) (payload : Bytes) : Bytes :=
  if payload.length < 56 then UInt8.ofNat (base + payload.length) :: payload
  else
    let size := digits payload.length
    UInt8.ofNat (base + 55 + size.length) :: (size ++ payload)

mutual

/-- The encoding of a tree, as it is defined. An octet below 128 stands for itself. -/
def canonical : Item → Bytes
  | .str b => if b.length = 1 ∧ natOfBE b < 128 then b else announce 128 b
  | .list items => announce 192 (canonicalAll items)

/-- The encodings of several trees behind each other. -/
def canonicalAll : List Item → Bytes
  | [] => []
  | item :: items => canonical item ++ canonicalAll items

end

theorem announce_eq (base : Nat) (payload : Bytes) :
    announce base payload = marker base payload.length ++ payload := by
  rw [announce, marker, ← minimalBE_eq_digits]
  split <;> split
  · rfl
  · omega
  · omega
  · rfl

theorem bytes_eq_canonical (b : Bytes) : bytes b = (Item.str b).canonical := by
  have hself (x : UInt8) : natOfBE [x] < 128 ↔ x < 0x80 := by
    rw [UInt8.lt_iff_toNat_lt, natOfBE, List.foldl_cons, List.foldl_nil, Nat.zero_mul, Nat.zero_add]
    rfl
  rw [canonical, announce_eq]
  split
  next h =>
    obtain ⟨x, rfl⟩ := List.length_eq_one_iff.mp h.1
    exact if_pos ((hself x).mp h.2)
  next h =>
    refine bytes_of_not_bare fun hbare => h ?_
    obtain ⟨x, rfl, hx⟩ := hbare
    exact ⟨rfl, (hself x).mpr hx⟩

mutual

/-- **The encoding of a tree is the defined one.** -/
theorem encode_eq_canonical : (item : Item) → item.encode = item.canonical
  | .str b => by rw [encode_str, bytes_eq_canonical]
  | .list items => by
    rw [encode_list, Rlp.list, canonical, announce_eq, encodeAll_eq_canonical items]

theorem encodeAll_eq_canonical : (items : List Item) → encodeAll items = canonicalAll items
  | [] => by rw [encodeAll_nil, canonicalAll]
  | item :: items => by
    rw [encodeAll_cons, canonicalAll, encode_eq_canonical item, encodeAll_eq_canonical items]

end

end Item

/-! ### Markers -/

/-- A long length is read from the octets of a number above 55. -/
theorem longLength_eq_some_iff {size n : Nat} {input rest : Bytes} :
    longLength size input = some (n, rest) ↔
      55 < n ∧ natSize n = size ∧ input = minimalBE n ++ rest := by
  constructor
  · intro h
    simp only [longLength] at h
    split at h
    · cases h
    next hthere =>
      split at h
      · cases h
      next hhead =>
        split at h
        · cases h
        next hlong =>
          cases h
          have hoctets := minimalBE_natOfBE hhead
          refine ⟨Nat.lt_of_not_le hlong, ?_, by rw [hoctets, List.take_append_drop]⟩
          rw [← length_minimalBE, hoctets]
          exact Nat.le_antisymm (List.length_take_le ..) (Nat.le_of_not_lt hthere)
  · rintro ⟨hlong, rfl, rfl⟩
    exact longLength_minimalBE hlong rest

/-- The first octet of a short marker. -/
theorem marker_of_short {base : Nat} {b : UInt8} (hbase : base ≤ b.toNat)
    (hshort : b.toNat - base ≤ 55) (input : Bytes) :
    b :: input = marker base (b.toNat - base) ++ input := by
  rw [marker, if_pos hshort, Nat.add_sub_cancel' hbase, UInt8.ofNat_toNat]
  rfl

/-- The first octet of a long marker, and the length behind it. -/
theorem marker_of_longLength {base n : Nat} {b : UInt8} {input rest : Bytes}
    (hlow : base + 55 ≤ b.toNat) (hhigh : b.toNat ≤ base + 63)
    (h : longLength (b.toNat - (base + 55)) input = some (n, rest)) :
    55 < n ∧ n < UInt64.size ∧ b :: input = marker base n ++ rest := by
  obtain ⟨hlong, hsize, rfl⟩ := longLength_eq_some_iff.mp h
  refine ⟨hlong, natSize_le_iff.mp (by omega : natSize n ≤ 8), ?_⟩
  simp only [marker, if_neg (Nat.not_le_of_lt hlong), length_minimalBE, hsize,
    Nat.add_sub_cancel' hlow, UInt8.ofNat_toNat, List.cons_append]

/-- What a marker can be: an octet that stands for itself, or one that announces a string or a
list. One octet is only announced if it does not stand for itself. -/
inductive Marked : Bytes → Announced → Bytes → Prop
  /-- An octet below 128. -/
  | self {x : UInt8} {tail : Bytes} (h : x < 0x80) : Marked (x :: tail) ⟨false, 1⟩ (x :: tail)
  /-- A string. -/
  | string {n : Nat} {rest : Bytes} (hn : n < UInt64.size)
    (hone : n = 1 → ∃ x tail, rest = x :: tail ∧ ¬ x < 0x80) :
    Marked (marker 0x80 n ++ rest) ⟨false, n⟩ rest
  /-- A list. -/
  | list {n : Nat} {rest : Bytes} (hn : n < UInt64.size) :
    Marked (marker 0xc0 n ++ rest) ⟨true, n⟩ rest

/-- Every marker that is read is of one of these forms. The cases are the ranges of its first
octet. -/
theorem marked_of_bareMarker {input rest : Bytes} {announced : Announced}
    (h : bareMarker input = some (announced, rest)) : Marked input announced rest := by
  have hword : 256 < UInt64.size := by decide
  unfold bareMarker at h
  split at h
  next => cases h
  next b input =>
  have hb := b.toNat_lt
  simp only [UInt8.lt_iff_toNat_lt, UInt8.le_iff_toNat_le, UInt8.reduceToNat] at h
  split at h
  next hself =>
    cases h
    exact .self (UInt8.lt_iff_toNat_lt.mpr hself)
  next hmarked =>
  split at h
  next hshort =>
    have hmarker := marker_of_short (by omega : 0x80 ≤ b.toNat) (by omega)
    split at h
    next hone =>
      split at h
      next => cases h
      next x tail =>
        split at h
        next => cases h
        next hx =>
          cases h
          rw [hmarker, hone]
          exact .string (by decide) fun _ => ⟨x, tail, rfl, hx⟩
    next hone =>
      cases h
      rw [hmarker]
      exact .string (by omega) fun h => absurd h hone
  next hlong =>
  split at h
  next hstring =>
    obtain ⟨⟨n, _⟩, hlength, heq⟩ := Option.map_eq_some_iff.mp h
    cases heq
    have hrange : 0x80 + 55 ≤ b.toNat ∧ b.toNat ≤ 0x80 + 63 := by omega
    obtain ⟨hn, hsize, hinput⟩ := marker_of_longLength hrange.1 hrange.2 hlength
    rw [hinput]
    exact .string hsize fun hone => by omega
  next hlist =>
  split at h
  next hshort =>
    cases h
    rw [marker_of_short (by omega : 0xc0 ≤ b.toNat) (by omega)]
    exact .list (by omega)
  next hlong =>
    obtain ⟨⟨n, _⟩, hlength, heq⟩ := Option.map_eq_some_iff.mp h
    cases heq
    have hrange : 0xc0 + 55 ≤ b.toNat ∧ b.toNat ≤ 0xc0 + 63 := by omega
    obtain ⟨-, hsize, hinput⟩ := marker_of_longLength hrange.1 hrange.2 hlength
    rw [hinput]
    exact .list hsize

/-- A marker is accepted if its payload is there. -/
theorem marker?_eq_some_iff {input rest : Bytes} {announced : Announced} :
    marker? input = some (announced, rest) ↔
      bareMarker input = some (announced, rest) ∧ announced.length ≤ rest.length := by
  refine ⟨fun h => ?_, fun h => marker?_of_bareMarker h.1 h.2⟩
  obtain ⟨⟨announced, rest⟩, hbare, h⟩ := Option.bind_eq_some_iff.mp h
  dsimp only at h
  split at h
  next hthere =>
    cases h
    exact ⟨hbare, hthere⟩
  next => cases h

/-- **A string is read exactly from its encoding.** -/
theorem string?_eq_some_iff {input b rest : Bytes} :
    string? input = some (b, rest) ↔ Fits b ∧ input = bytes b ++ rest := by
  constructor
  · intro h
    obtain ⟨⟨announced, after⟩, hmarker, h⟩ := Option.bind_eq_some_iff.mp h
    obtain ⟨hbare, hthere⟩ := marker?_eq_some_iff.mp hmarker
    dsimp only at h
    split at h
    next => cases h
    next hstring =>
      cases h
      cases marked_of_bareMarker hbare with
      | @self x tail hx =>
        have hself : bytes [x] = [x] := Bare.bytes_eq ⟨x, rfl, hx⟩
        exact ⟨by simp [Fits, UInt64.size], by simp [hself]⟩
      | @string n _ hfits hone =>
        have hlength : (after.take n).length = n := List.length_take_of_le hthere
        refine ⟨by rwa [Fits, hlength], ?_⟩
        rw [bytes_of_not_bare, hlength, List.append_assoc, List.take_append_drop]
        rintro ⟨x, hx, hlt⟩
        rw [hx] at hlength
        obtain ⟨y, tail, rfl, hy⟩ := hone hlength.symm
        rw [← hlength] at hx
        cases hx
        exact hy hlt
      | list => exact absurd rfl hstring
  · rintro ⟨hfits, rfl⟩
    exact string?_bytes hfits rest

/-! ### Readers behind each other -/

section monad

variable {α β : Type} {input rest : Bytes}

theorem pure_eq_some_iff {a b : α} :
    (pure a : Reader α) input = some (b, rest) ↔ a = b ∧ input = rest := by
  show some (a, input) = some (b, rest) ↔ _
  rw [Option.some.injEq, Prod.mk.injEq]

theorem failure_ne_some {a : α} : (failure : Reader α) input ≠ some (a, rest) := nofun

theorem bind_eq_some_iff {reader : Reader α} {next : α → Reader β} {b : β} :
    (reader >>= next) input = some (b, rest) ↔
      ∃ a after, reader input = some (a, after) ∧ next a after = some (b, rest) := by
  show (reader input).bind (fun read => next read.1 read.2) = some (b, rest) ↔ _
  rw [Option.bind_eq_some_iff, Prod.exists]

theorem map_eq_some_iff {reader : Reader α} {f : α → β} {b : β} :
    (f <$> reader) input = some (b, rest) ↔ ∃ a, reader input = some (a, rest) ∧ f a = b := by
  rw [map_eq_pure_bind, bind_eq_some_iff]
  simp [pure_eq_some_iff]

end monad

/-! ### Numbers -/

/-- **A number is read exactly from its encoding**, if it has no more octets than allowed. -/
theorem nat?_eq_some_iff {width n : Nat} {input rest : Bytes} (h : width < UInt64.size) :
    nat? width input = some (n, rest) ↔ natSize n ≤ width ∧ input = nat n ++ rest := by
  rw [nat?, bind_eq_some_iff]
  constructor
  · rintro ⟨octets, after, hread, h⟩
    obtain ⟨-, rfl⟩ := string?_eq_some_iff.mp hread
    split at h
    next hoctets =>
      obtain ⟨rfl, rfl⟩ := pure_eq_some_iff.mp h
      have hminimal := minimalBE_natOfBE hoctets.2
      rw [nat, hminimal, ← length_minimalBE, hminimal]
      exact ⟨hoctets.1, rfl⟩
    next => exact absurd h failure_ne_some
  · rintro ⟨hsize, rfl⟩
    refine ⟨minimalBE n, rest, string?_bytes ?_ rest, ?_⟩
    · rw [Fits, length_minimalBE]
      exact Nat.lt_of_le_of_lt hsize h
    · rw [if_pos ⟨by rwa [length_minimalBE], head?_minimalBE_ne_zero n⟩, natOfBE_minimalBE]
      rfl

/-! ### Trees -/

namespace Item

/-- A tree whose outer marker can announce what follows it. -/
def Fits : Item → Prop
  | .str b => Rlp.Fits b
  | .list items => Rlp.Fits (encodeAll items)

@[simp] theorem fits_str {b : Bytes} : (Item.str b).Fits ↔ Rlp.Fits b := Iff.rfl

@[simp] theorem fits_list {items : List Item} :
    (Item.list items).Fits ↔ Rlp.Fits (encodeAll items) := Iff.rfl

theorem encodeAll_append (items others : List Item) :
    encodeAll (items ++ others) = encodeAll items ++ encodeAll others := by
  induction items with
  | nil => rw [encodeAll_nil, List.nil_append, List.nil_append]
  | cons item items ih =>
    rw [List.cons_append, encodeAll_cons, encodeAll_cons, ih, List.append_assoc]

/-- A tree that takes so few octets can be announced. -/
theorem fits_of_length_lt {item : Item} (h : item.encode.length < UInt64.size) : item.Fits := by
  cases item with
  | str b =>
    rw [encode_str] at h
    exact Nat.lt_of_le_of_lt (length_le_length_bytes b) h
  | list items =>
    rw [encode_list, Rlp.list, List.length_append] at h
    rw [fits_list, Rlp.Fits]
    omega

/-- **The markers inside a list have room** if the one in front of it has. -/
theorem fits_of_mem {item : Item} {items : List Item} (h : Rlp.Fits (encodeAll items))
    (hmem : item ∈ items) : item.Fits := by
  refine fits_of_length_lt (Nat.lt_of_le_of_lt ?_ h)
  obtain ⟨before, after, rfl⟩ := List.append_of_mem hmem
  rw [encodeAll_append, encodeAll_cons, List.length_append, List.length_append]
  omega

/-- A number of so few octets can be announced. -/
theorem fits_nat {n : Nat} (h : natSize n < UInt64.size) : (nat n).Fits := by
  rwa [nat, fits_str, Rlp.Fits, length_minimalBE]

theorem encode_ne_nil (item : Item) : item.encode ≠ [] := by
  cases item with
  | str b =>
    rw [encode_str]
    exact bytes_ne_nil b
  | list items =>
    rw [encode_list, Rlp.list, marker]
    split <;> exact List.cons_ne_nil _ _

end Item

/-- A reader takes exactly the encoded trees of its values, whatever follows. -/
def Reads {α : Type} (reader : Reader α) (toItem : α → Item) : Prop :=
  ∀ input value rest, reader input = some (value, rest) ↔
    (toItem value).Fits ∧ input = (toItem value).encode ++ rest

theorem Reads.encode {α : Type} {reader : Reader α} {toItem : α → Item} (h : Reads reader toItem)
    {value : α} (hfits : (toItem value).Fits) (rest : Bytes) :
    reader ((toItem value).encode ++ rest) = some (value, rest) :=
  (h _ _ _).mpr ⟨hfits, rfl⟩

/-! ### Leaves -/

/-- A word is read from its octets. -/
theorem reads_word {α : Type} {width : Nat} {ofNat : Nat → α} {toNat : α → Nat}
    (hwidth : width < UInt64.size) (hsize : ∀ value, natSize (toNat value) ≤ width)
    (hof : ∀ value, ofNat (toNat value) = value)
    (hto : ∀ n, natSize n ≤ width → toNat (ofNat n) = n) :
    Reads (ofNat <$> nat? width) fun value => .nat (toNat value) := by
  intro input value rest
  have hfits := Item.fits_nat (Nat.lt_of_le_of_lt (hsize value) hwidth)
  simp only [map_eq_some_iff, nat?_eq_some_iff hwidth, Item.encode_nat]
  constructor
  · rintro ⟨n, ⟨hn, rfl⟩, rfl⟩
    exact ⟨hfits, by rw [hto n hn]⟩
  · rintro ⟨-, rfl⟩
    exact ⟨toNat value, ⟨hsize value, rfl⟩, hof value⟩

theorem reads_uint8? : Reads (UInt8.ofNat <$> nat? 1) fun value => .nat value.toNat :=
  reads_word (by decide) (fun value => natSize_le_iff.mpr value.toNat_lt)
    (fun _ => UInt8.ofNat_toNat) fun _ h => UInt8.toNat_ofNat_of_lt' (natSize_le_iff.mp h)

theorem reads_uint64? : Reads uint64? fun value => .nat value.toNat :=
  reads_word (by decide) (fun value => natSize_le_eight value.toNat_lt)
    (fun _ => UInt64.ofNat_toNat) fun _ h => UInt64.toNat_ofNat_of_lt' (natSize_le_iff.mp h)

theorem reads_uint128? : Reads uint128? fun value => .nat value.toNat :=
  reads_word (by decide) (fun value => natSize_le_iff.mpr value.isLt)
    (fun _ => BitVec.eq_of_toNat_eq (by simp))
    fun _ h => Nat.mod_eq_of_lt (natSize_le_iff.mp h)

theorem reads_uint256? : Reads uint256? fun value => .nat value.toNat :=
  reads_word (by decide) natSize_toNat_le (fun _ => BitVec.eq_of_toNat_eq (by simp))
    fun _ h => Nat.mod_eq_of_lt (natSize_le_iff.mp h)

theorem reads_bool? : Reads bool? fun value => .nat value.toNat := by
  intro input value rest
  have hsize : natSize value.toNat ≤ 1 := by cases value <;> simp [natSize]
  have hfits := Item.fits_nat (Nat.lt_of_le_of_lt hsize (by decide))
  simp only [bool?, bind_eq_some_iff, nat?_eq_some_iff (by decide : 1 < UInt64.size),
    Item.encode_nat]
  constructor
  · rintro ⟨n, after, ⟨-, rfl⟩, h⟩
    split at h
    next hzero =>
      obtain ⟨rfl, rfl⟩ := pure_eq_some_iff.mp h
      exact ⟨hfits, by rw [hzero]; rfl⟩
    next =>
      split at h
      next hone =>
        obtain ⟨rfl, rfl⟩ := pure_eq_some_iff.mp h
        exact ⟨hfits, by rw [hone]; rfl⟩
      next => exact absurd h failure_ne_some
  · rintro ⟨-, rfl⟩
    refine ⟨value.toNat, rest, ⟨hsize, rfl⟩, ?_⟩
    cases value <;> rfl

theorem reads_string? : Reads string? .str := fun _ _ _ => by
  rw [string?_eq_some_iff, Item.fits_str, Item.encode_str]

theorem reads_fixed? (n : Nat) : Reads (fixed? n) fun value => .str value.toList := by
  intro input value rest
  rw [fixed?, bind_eq_some_iff, Item.fits_str, Item.encode_str]
  constructor
  · rintro ⟨octets, after, hread, h⟩
    cases hlength : FixedBytes.ofList? n octets with
    | none => simp [hlength, failure_ne_some] at h
    | some found =>
      simp only [hlength, pure_eq_some_iff] at h
      obtain ⟨rfl, rfl⟩ := h
      rwa [FixedBytes.toList_of_ofList? hlength, ← string?_eq_some_iff]
  · intro h
    refine ⟨value.toList, rest, string?_eq_some_iff.mpr h, ?_⟩
    rw [FixedBytes.ofList?_toList]
    rfl

/-! ### Fields behind each other -/

/-- A reader takes exactly the encoded trees of some fields of a record, behind each other; `known`
is what the fields in front of them say about the record. -/
def ReadsFields {α : Type} (known : α → Prop) (reader : Reader α) (toItems : α → List Item) :
    Prop :=
  ∀ input value rest, reader input = some (value, rest) ↔
    known value ∧ (∀ item ∈ toItems value, item.Fits) ∧
      input = Item.encodeAll (toItems value) ++ rest

theorem Reads.fields {α : Type} {reader : Reader α} {toItem : α → Item} (h : Reads reader toItem) :
    ReadsFields (fun _ => True) reader fun value => [toItem value] := by
  intro input value rest
  rw [h, true_and, List.forall_mem_singleton, Item.encodeAll_cons, Item.encodeAll_nil,
    List.append_nil]

/-- A number is read as long as it has no more octets than allowed. -/
theorem readsFields_nat? {width : Nat} (h : width < UInt64.size) :
    ReadsFields (natSize · ≤ width) (nat? width) fun n => [.nat n] := by
  intro input n rest
  rw [nat?_eq_some_iff h, List.forall_mem_singleton, Item.encodeAll_cons, Item.encodeAll_nil,
    List.append_nil, Item.encode_nat]
  exact and_congr_right fun hn =>
    (and_iff_right (Item.fits_nat (Nat.lt_of_le_of_lt hn h))).symm

namespace ReadsFields

variable {α β : Type} {known : β → Prop} {toItems : β → List Item}

/-- No field is left: the record is the only one that has the known fields. -/
theorem pure {value : β} (h : ∀ other, known other ↔ value = other) :
    ReadsFields known (Pure.pure value) fun _ => [] := by
  intro input other rest
  rw [pure_eq_some_iff, h]
  simp

/-- No record has the known fields. -/
theorem failure (h : ∀ value, ¬ known value) : ReadsFields known failure toItems :=
  fun _ value _ => iff_of_false failure_ne_some fun hread => h value hread.1

/-- Some fields more, read together. -/
theorem append {valid : α → Prop} {items : α → List Item} {reader : Reader α}
    {next : α → Reader β} {fields : β → α} (hfields : ReadsFields valid reader items)
    (hvalid : ∀ value, known value → valid (fields value))
    (hrest : ∀ a, ReadsFields (fun value => fields value = a ∧ known value) (next a) toItems) :
    ReadsFields known (reader >>= next) fun value => items (fields value) ++ toItems value := by
  intro input value rest
  simp only [bind_eq_some_iff, hfields _ _ _, hrest _ _ _ _, List.forall_mem_append,
    Item.encodeAll_append, List.append_assoc]
  constructor
  · rintro ⟨a, after, ⟨-, hfits, rfl⟩, ⟨rfl, hknown⟩, hall, rfl⟩
    exact ⟨hknown, ⟨hfits, hall⟩, rfl⟩
  · rintro ⟨hknown, ⟨hfits, hall⟩, rfl⟩
    exact ⟨_, _, ⟨hvalid value hknown, hfits, rfl⟩, ⟨rfl, hknown⟩, hall, rfl⟩

/-- One field more. -/
theorem cons {toItem : α → Item} {reader : Reader α} {next : α → Reader β} {field : β → α}
    (hfield : Reads reader toItem)
    (hrest : ∀ a, ReadsFields (fun value => field value = a ∧ known value) (next a) toItems) :
    ReadsFields known (reader >>= next) fun value => toItem (field value) :: toItems value :=
  hfield.fields.append (fun _ _ => trivial) hrest

end ReadsFields

/-! ### Lists -/

/-- The marker of a list is read if the whole payload is there. -/
theorem listHeader_eq_some_iff {input rest : Bytes} {n : Nat} :
    listHeader input = some (n, rest) ↔
      n < UInt64.size ∧ n ≤ rest.length ∧ input = marker 0xc0 n ++ rest := by
  rw [listHeader, bind_eq_some_iff]
  constructor
  · rintro ⟨announced, after, hmarker, h⟩
    obtain ⟨hbare, hthere⟩ := marker?_eq_some_iff.mp hmarker
    split at h
    next hlist =>
      obtain ⟨rfl, rfl⟩ := pure_eq_some_iff.mp h
      cases marked_of_bareMarker hbare with
      | self => cases hlist
      | string => cases hlist
      | list hn => exact ⟨hn, hthere, rfl⟩
    next => exact absurd h failure_ne_some
  · rintro ⟨hn, hthere, rfl⟩
    exact ⟨⟨true, n⟩, rest, marker?_of_bareMarker (bareMarker_list hn rest) hthere, rfl⟩

/-- In front of a list stands its length. -/
theorem listHeader_list {items : List Item} (h : (Item.list items).Fits) (rest : Bytes) :
    listHeader ((Item.list items).encode ++ rest) =
      some ((Item.encodeAll items).length, Item.encodeAll items ++ rest) := by
  rw [Item.encode_list, list, List.append_assoc]
  exact listHeader_eq_some_iff.mpr ⟨h, by simp, rfl⟩

/-- A string is not a list. -/
theorem listHeader_str {b : Bytes} (h : Fits b) (rest : Bytes) :
    listHeader ((Item.str b).encode ++ rest) = none := by
  rw [Item.encode_str, Option.eq_none_iff_forall_ne_some]
  rintro ⟨n, after⟩ hread
  obtain ⟨announced, left, hmarker, hlist⟩ := bind_eq_some_iff.mp hread
  rw [marker?_bytes h] at hmarker
  cases hmarker
  exact failure_ne_some hlist

/-- The first octet of a list is none of a string. -/
theorem exists_cons_list {items : List Item} (h : (Item.list items).Fits) :
    ∃ b tail, (Item.list items).encode = b :: tail ∧ 0xc0 ≤ b.toNat := by
  rw [Item.encode_list, list, marker]
  split
  next hshort => exact ⟨_, _, rfl, by rw [toNat_first _ _ (by omega)]; omega⟩
  next =>
    have hsize := natSize_le_eight h
    refine ⟨_, _, rfl, ?_⟩
    rw [length_minimalBE, toNat_first _ _ (by omega)]
    omega

section lists

variable {α : Type} {reader : Reader α}

/-- **A list is read by its members**, and they are all that is in it. -/
theorem ReadsFields.exactly {toItems : α → List Item}
    (h : ReadsFields (fun _ => True) reader toItems) :
    Reads (Rlp.exactly reader) fun value => .list (toItems value) := by
  intro input value rest
  constructor
  · intro hread
    rw [Item.fits_list, Item.encode_list, list, List.append_assoc]
    obtain ⟨⟨n, after⟩, hheader, hinside⟩ := Option.bind_eq_some_iff.mp hread
    obtain ⟨⟨value, left⟩, hmembers, hend⟩ := Option.bind_eq_some_iff.mp hinside
    obtain ⟨hn, -, rfl⟩ := listHeader_eq_some_iff.mp hheader
    obtain ⟨-, -, rfl⟩ := (h _ _ _).mp hmembers
    dsimp only at hend
    split at hend
    next hall =>
      cases hend
      have hlength : n = (Item.encodeAll (toItems value)).length := by
        rw [List.length_append] at hall
        omega
      exact ⟨by rwa [Fits, ← hlength], by rw [hlength]⟩
    next => cases hend
  · rintro ⟨hfits, rfl⟩
    have hheader := listHeader_list hfits rest
    have hmembers := (h _ value rest).mpr ⟨trivial, fun item => Item.fits_of_mem hfits, rfl⟩
    simp [Rlp.exactly, hheader, hmembers, Nat.add_comm, -Item.encode_list]

/-- A reader that takes something is asked again. -/
theorem many_of_some {input rest : Bytes} {value : α} (h : reader input = some (value, rest))
    (hshorter : rest.length < input.length) :
    many reader input = (many reader rest).map (value :: ·) := by
  cases input with
  | nil => simp at hshorter
  | cons b input =>
    rw [many]
    simp only [h, hshorter, ↓reduceDIte]

/-- Trees behind each other are read until nothing is left. -/
theorem many_eq_some_iff {toItem : α → Item} (h : Reads reader toItem) {input : Bytes}
    {values : List α} :
    many reader input = some values ↔
      (∀ value ∈ values, (toItem value).Fits) ∧
        input = Item.encodeAll (values.map toItem) := by
  constructor
  · intro hread
    fun_induction many reader input generalizing values with
    | case1 =>
      cases hread
      exact ⟨by simp, rfl⟩
    | case2 => cases hread
    | case3 b input first rest hfirst _ ih =>
      obtain ⟨others, hothers, rfl⟩ := Option.map_eq_some_iff.mp hread
      obtain ⟨hfits, hinput⟩ := (h _ _ _).mp hfirst
      obtain ⟨hrest, rfl⟩ := ih hothers
      exact ⟨List.forall_mem_cons.mpr ⟨hfits, hrest⟩, hinput⟩
    | case4 => cases hread
  · rintro ⟨hfits, rfl⟩
    induction values with
    | nil => rw [List.map_nil, Item.encodeAll_nil, many]
    | cons value values ih =>
      rw [List.forall_mem_cons] at hfits
      have hfirst := h.encode hfits.1 (Item.encodeAll (values.map toItem))
      have hpos := List.length_pos_iff.mpr (toItem value).encode_ne_nil
      rw [List.map_cons, Item.encodeAll_cons, many_of_some hfirst (by simpa using hpos),
        ih hfits.2]
      rfl

/-- **A list of any number of values is read from their trees.** -/
theorem Reads.listOf {toItem : α → Item} (h : Reads reader toItem) :
    Reads (Rlp.listOf reader) fun values => .list (values.map toItem) := by
  intro input values rest
  constructor
  · intro hread
    rw [Item.fits_list, Item.encode_list, list, List.append_assoc]
    obtain ⟨⟨n, after⟩, hheader, hinside⟩ := Option.bind_eq_some_iff.mp hread
    obtain ⟨values, hmembers, hend⟩ := Option.bind_eq_some_iff.mp hinside
    cases hend
    obtain ⟨hn, hthere, rfl⟩ := listHeader_eq_some_iff.mp hheader
    obtain ⟨-, htake⟩ := (many_eq_some_iff h).mp hmembers
    rw [Fits, ← htake, List.length_take_of_le hthere, List.take_append_drop]
    exact ⟨hn, rfl⟩
  · rintro ⟨hfits, rfl⟩
    have hheader := listHeader_list hfits rest
    have hmembers := (many_eq_some_iff h).mpr
      ⟨fun value hmem => Item.fits_of_mem hfits (List.mem_map_of_mem hmem), rfl⟩
    simp [Rlp.listOf, hheader, hmembers, -Item.encode_list]

end lists

end ExecutionNode.Rlp
