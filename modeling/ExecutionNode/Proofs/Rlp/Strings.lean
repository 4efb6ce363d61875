import ExecutionNode.Proofs.Rlp.Octets
import ExecutionNode.Rlp.Reader

/-!
# Strings and lists on the wire

What the encoding of a string or a list says about it.

* `length_bytes`, `length_nat`: the encoded lengths are the announced ones.
* `list_injective`: a list determines the bytes of its members, however long they are.
* `string?_bytes`: a string is read back, whatever follows it.
* `flatMap_bytes_injective`: strings behind each other are determined one by one, the end included.
* `bytes_append_injective_of_fits`: a string of any length is told apart from what follows it, if
  what follows is no longer than a string in memory can be.

Strings are read back as long as a marker can announce their length (`Fits`), which holds of every
string that a memory of 64 bit addresses can hold.
-/

namespace ExecutionNode.Rlp

/-! ### Two forms of a string -/

/-- A string without a marker: a single octet below 128. -/
def Bare (b : Bytes) : Prop := ∃ x, b = [x] ∧ x < 0x80

theorem Bare.bytes_eq {b : Bytes} (h : Bare b) : bytes b = b := by
  obtain ⟨x, rfl, hx⟩ := h
  exact if_pos hx

theorem Bare.length_eq {b : Bytes} (h : Bare b) : b.length = 1 := by
  obtain ⟨x, rfl, _⟩ := h
  rfl

theorem Bare.bytesLength_eq {b : Bytes} (h : Bare b) : bytesLength b = 1 := by
  obtain ⟨x, rfl, hx⟩ := h
  exact if_pos hx

/-- Every other string stands behind a marker. -/
theorem bytes_of_not_bare {b : Bytes} (h : ¬ Bare b) : bytes b = marker 0x80 b.length ++ b := by
  unfold bytes
  split
  next x => exact if_neg fun hx => h ⟨x, rfl, hx⟩
  next => rfl

theorem bytesLength_of_not_bare {b : Bytes} (h : ¬ Bare b) :
    bytesLength b = markerLength b.length + b.length := by
  unfold bytesLength
  split
  next x => exact if_neg fun hx => h ⟨x, rfl, hx⟩
  next => rfl

/-! ### Numbers -/

/-- Zero is an empty string. -/
theorem nat_zero : nat 0 = [0x80] := by
  rw [nat, minimalBE_zero]; rfl

/-- The octets of a number are a bare string if the number is below 128 and not zero. -/
theorem bare_minimalBE_iff {n : Nat} : Bare (minimalBE n) ↔ 0 < n ∧ n < 0x80 := by
  constructor
  · rintro ⟨x, hx, hlt⟩
    have hn : n = x.toNat := by rw [← natOfBE_minimalBE n, hx]; simp [natOfBE]
    refine ⟨Nat.pos_of_ne_zero fun hzero => ?_, hn ▸ UInt8.lt_iff_toNat_lt.mp hlt⟩
    simp [hzero] at hx
  · rintro ⟨hpos, hlt⟩
    refine ⟨_, minimalBE_of_lt hpos (by omega), UInt8.lt_iff_toNat_lt.mpr ?_⟩
    rw [toNat_ofNat_octet, Nat.mod_eq_of_lt (by omega)]
    exact hlt

/-- A number below 128 stands for itself. -/
theorem nat_of_lt {n : Nat} (hpos : 0 < n) (hlt : n < 0x80) : nat n = [UInt8.ofNat n] := by
  rw [nat, (bare_minimalBE_iff.mpr ⟨hpos, hlt⟩).bytes_eq, minimalBE_of_lt hpos (by omega)]

/-- A larger number stands behind its size. -/
theorem nat_of_ge {n : Nat} (hge : 0x80 ≤ n) (hsize : natSize n ≤ 55) :
    nat n = UInt8.ofNat (0x80 + natSize n) :: minimalBE n := by
  have hbare : ¬ Bare (minimalBE n) := fun h => by
    have := (bare_minimalBE_iff.mp h).2
    omega
  rw [nat, bytes_of_not_bare hbare, length_minimalBE, marker, if_pos hsize]
  rfl

/-! ### Lengths -/

theorem length_marker (base n : Nat) : (marker base n).length = markerLength n := by
  unfold marker markerLength
  split
  · rfl
  · rw [List.length_cons, length_minimalBE, Nat.add_comm]

/-- A string takes as many octets as its length announces. -/
theorem length_bytes (b : Bytes) : (bytes b).length = bytesLength b := by
  by_cases h : Bare b
  · rw [h.bytes_eq, h.bytesLength_eq, h.length_eq]
  · rw [bytes_of_not_bare h, bytesLength_of_not_bare h, List.length_append, length_marker]

/-- A string takes no less than its own octets. -/
theorem length_le_length_bytes (b : Bytes) : b.length ≤ (bytes b).length := by
  by_cases h : Bare b
  · exact Nat.le_of_eq (congrArg List.length h.bytes_eq).symm
  · rw [bytes_of_not_bare h, List.length_append]
    omega

/-- A number takes as many octets as its length announces, if it has no more than 55 of its own. -/
theorem length_nat {n : Nat} (h : natSize n ≤ 55) : (nat n).length = natLength n := by
  rw [natLength]
  rcases Nat.eq_zero_or_pos n with rfl | hpos
  · rw [nat_zero]; rfl
  · split
    next hlt => rw [nat_of_lt hpos hlt, List.length_singleton]
    next hge =>
      rw [nat_of_ge (by omega) h, List.length_cons, length_minimalBE, Nat.add_comm]

/-- A longer payload does not have a shorter marker. -/
theorem markerLength_mono {m n : Nat} (h : m ≤ n) : markerLength m ≤ markerLength n := by
  have := natSize_mono h
  unfold markerLength
  split <;> split <;> omega

/-! ### Lists -/

/-- A list determines the bytes of its members. -/
theorem list_injective {a b : Bytes} (h : list a = list b) : a = b := by
  have hlength : markerLength a.length + a.length = markerLength b.length + b.length := by
    simpa [list, length_marker] using congrArg List.length h
  have hsame : a.length = b.length := by
    rcases Nat.lt_trichotomy a.length b.length with hlt | heq | hgt
    · have := markerLength_mono (Nat.le_of_lt hlt)
      omega
    · exact heq
    · have := markerLength_mono (Nat.le_of_lt hgt)
      omega
  rw [list, list, hsame] at h
  exact List.append_cancel_left h

/-! ### Markers are read back -/

/-- A string whose length a marker can announce. -/
def Fits (b : Bytes) : Prop := b.length < UInt64.size

/-- A long length is read back. -/
theorem longLength_minimalBE {n : Nat} (h : 55 < n) (rest : Bytes) :
    longLength (natSize n) (minimalBE n ++ rest) = some (n, rest) := by
  have htake : (minimalBE n ++ rest).take (natSize n) = minimalBE n := by
    rw [← length_minimalBE, List.take_left]
  have hdrop : (minimalBE n ++ rest).drop (natSize n) = rest := by
    rw [← length_minimalBE, List.drop_left]
  simp only [longLength, htake, hdrop, length_minimalBE, natOfBE_minimalBE]
  rw [if_neg (by omega), if_neg (head?_minimalBE_ne_zero n), if_neg (by omega)]

/-- The first octet of a marker, as a number. -/
theorem toNat_first (base n : Nat) (h : base + n < 256) :
    (UInt8.ofNat (base + n)).toNat = base + n := by
  rw [toNat_ofNat_octet, Nat.mod_eq_of_lt h]

/-- The marker of a string is read back. A marker for one octet is only accepted in front of an
octet that does not stand for itself. -/
theorem bareMarker_string {n : Nat} {rest : Bytes} (hn : n < UInt64.size)
    (hone : n = 1 → ∃ x tail, rest = x :: tail ∧ ¬ x < 0x80) :
    bareMarker (marker 0x80 n ++ rest) = some (⟨false, n⟩, rest) := by
  unfold marker
  split
  next hshort =>
    have hfirst := toNat_first 0x80 n (by omega)
    simp only [List.cons_append, List.nil_append, bareMarker, UInt8.lt_iff_toNat_lt,
      UInt8.le_iff_toNat_le, hfirst]
    rw [if_neg (by simp), if_pos (by simp; omega), Nat.add_sub_cancel_left]
    split
    next h =>
      obtain ⟨x, tail, rfl, hx⟩ := hone h
      rw [h]
      exact if_neg hx
    next => rfl
  next hlong =>
    have hpos := natSize_pos (n := n) (by omega)
    have hsize := natSize_le_eight hn
    have hfirst := toNat_first (0x80 + 55) (natSize n) (by omega)
    simp only [List.cons_append, bareMarker, UInt8.lt_iff_toNat_lt, UInt8.le_iff_toNat_le,
      length_minimalBE, hfirst]
    rw [if_neg (by simp; omega), if_neg (by simp; omega), if_pos (by simp; omega),
      Nat.add_sub_cancel_left, longLength_minimalBE (by omega)]
    rfl

/-- The marker of a list is read back. -/
theorem bareMarker_list {n : Nat} (hn : n < UInt64.size) (rest : Bytes) :
    bareMarker (marker 0xc0 n ++ rest) = some (⟨true, n⟩, rest) := by
  unfold marker
  split
  next hshort =>
    have hfirst := toNat_first 0xc0 n (by omega)
    simp only [List.cons_append, List.nil_append, bareMarker, UInt8.lt_iff_toNat_lt,
      UInt8.le_iff_toNat_le, hfirst]
    rw [if_neg (by simp; omega), if_neg (by simp; omega), if_neg (by simp; omega),
      if_pos (by simp; omega), Nat.add_sub_cancel_left]
  next hlong =>
    have hpos := natSize_pos (n := n) (by omega)
    have hsize := natSize_le_eight hn
    have hfirst := toNat_first (0xc0 + 55) (natSize n) (by omega)
    simp only [List.cons_append, bareMarker, UInt8.lt_iff_toNat_lt, UInt8.le_iff_toNat_le,
      length_minimalBE, hfirst]
    rw [if_neg (by simp; omega), if_neg (by simp; omega), if_neg (by simp; omega),
      if_neg (by simp; omega), Nat.add_sub_cancel_left, longLength_minimalBE (by omega)]
    rfl

/-! ### Strings are read back -/

theorem marker?_of_bareMarker {input rest : Bytes} {announced : Announced}
    (h : bareMarker input = some (announced, rest)) (hthere : announced.length ≤ rest.length) :
    marker? input = some (announced, rest) := by
  simp [marker?, h, hthere]

/-- What stands in front of a string says that a string of its length follows. -/
theorem marker?_bytes {b : Bytes} (h : Fits b) (rest : Bytes) :
    marker? (bytes b ++ rest) = some (⟨false, b.length⟩, b ++ rest) := by
  refine marker?_of_bareMarker ?_ (by simp)
  by_cases hbare : Bare b
  · rw [hbare.bytes_eq]
    obtain ⟨x, rfl, hx⟩ := hbare
    exact if_pos hx
  · rw [bytes_of_not_bare hbare, List.append_assoc]
    refine bareMarker_string h fun hone => ?_
    obtain ⟨x, rfl⟩ := List.length_eq_one_iff.mp hone
    exact ⟨x, rest, rfl, fun hx => hbare ⟨x, rfl, hx⟩⟩

/-- **A string is read back**, whatever follows it. -/
theorem string?_bytes {b : Bytes} (h : Fits b) (rest : Bytes) :
    string? (bytes b ++ rest) = some (b, rest) := by
  simp [string?, marker?_bytes h]

theorem bytes_ne_nil (b : Bytes) : bytes b ≠ [] := by
  by_cases h : Bare b
  · rw [h.bytes_eq]
    obtain ⟨x, rfl, _⟩ := h
    exact List.cons_ne_nil _ _
  · rw [bytes_of_not_bare h, marker]
    split <;> exact List.cons_ne_nil _ _

/-- A string and what follows it are told apart. -/
theorem bytes_append_injective {a b s t : Bytes} (ha : Fits a) (hb : Fits b)
    (h : bytes a ++ s = bytes b ++ t) : a = b ∧ s = t := by
  have hread := string?_bytes ha s
  rw [h, string?_bytes hb t] at hread
  exact Prod.mk.inj (Option.some.inj hread.symm)

/-- Strings in front of something are determined one by one, and so is what follows them. -/
theorem flatMap_bytes_append_injective {xs ys : List Bytes} {s t : Bytes}
    (hlength : xs.length = ys.length) (hxs : ∀ x ∈ xs, Fits x) (hys : ∀ y ∈ ys, Fits y)
    (h : xs.flatMap bytes ++ s = ys.flatMap bytes ++ t) : xs = ys ∧ s = t := by
  induction xs generalizing ys with
  | nil =>
    cases ys with
    | nil => exact ⟨rfl, h⟩
    | cons y ys => cases hlength
  | cons x xs ih =>
    cases ys with
    | nil => cases hlength
    | cons y ys =>
      rw [List.forall_mem_cons] at hxs hys
      rw [List.flatMap_cons, List.flatMap_cons, List.append_assoc, List.append_assoc] at h
      obtain ⟨rfl, hrest⟩ := bytes_append_injective hxs.1 hys.1 h
      obtain ⟨rfl, hsame⟩ := ih (Nat.succ.inj hlength) hxs.2 hys.2 hrest
      exact ⟨rfl, hsame⟩

/-- **Strings behind each other are determined one by one.** -/
theorem flatMap_bytes_injective {xs ys : List Bytes} (hxs : ∀ x ∈ xs, Fits x)
    (hys : ∀ y ∈ ys, Fits y) (h : xs.flatMap bytes = ys.flatMap bytes) : xs = ys := by
  induction xs generalizing ys with
  | nil =>
    cases ys with
    | nil => rfl
    | cons y ys => simp [bytes_ne_nil] at h
  | cons x xs ih =>
    cases ys with
    | nil => simp [bytes_ne_nil] at h
    | cons y ys =>
      rw [List.forall_mem_cons] at hxs hys
      obtain ⟨rfl, hrest⟩ := bytes_append_injective hxs.1 hys.1 h
      rw [ih hxs.2 hys.2 hrest]

/-! ### Strings that no marker can announce -/

/-- A string takes no more octets than its marker can have and its own. -/
theorem bytesLength_le (b : Bytes) : bytesLength b ≤ 1 + b.length + b.length := by
  by_cases h : Bare b
  · rw [h.bytesLength_eq]
    omega
  · have := natSize_le_self b.length
    rw [bytesLength_of_not_bare h, markerLength]
    split <;> omega

/-- Short strings behind each other are short. -/
theorem length_flatMap_bytes_le {xs : List Bytes} {n : Nat} (h : ∀ s ∈ xs, s.length ≤ n) :
    (xs.flatMap bytes).length ≤ xs.length * (1 + n + n) := by
  induction xs with
  | nil => simp
  | cons x xs ih =>
    rw [List.forall_mem_cons] at h
    have hfirst := bytesLength_le x
    have hrest := ih h.2
    rw [List.flatMap_cons, List.length_append, length_bytes, List.length_cons, Nat.succ_mul]
    omega

/-- The markers of two long payloads differ if one is longer, but not by much. -/
theorem length_eq_of_marker {base m n : Nat} {s t : Bytes} (hm : 55 < m) (hmn : m ≤ n)
    (hn : n ≤ m * Nat.pow 256 9) (h : marker base m ++ s = marker base n ++ t) : m = n := by
  have hmono := natSize_mono hmn
  have hclose := natSize_le_add hn
  have hlong : 55 < n := Nat.lt_of_lt_of_le hm hmn
  simp only [marker, if_neg (Nat.not_le_of_lt hm), if_neg (Nat.not_le_of_lt hlong),
    length_minimalBE, List.cons_append, List.cons.injEq] at h
  have hfirst := congrArg UInt8.toNat h.1
  rw [toNat_ofNat_octet, toNat_ofNat_octet] at hfirst
  have hsize : natSize m = natSize n := by omega
  exact minimalBE_injective (List.append_inj h.2 (by simpa using hsize)).1

/-- The first octet of a string of at most 55 octets is below `0xc0`. -/
theorem exists_cons_bytes {b : Bytes} (h : b.length ≤ 55) :
    ∃ x tail, bytes b = x :: tail ∧ x.toNat < 0xc0 := by
  by_cases hbare : Bare b
  · rw [hbare.bytes_eq]
    obtain ⟨x, rfl, hx⟩ := hbare
    have hlow : x.toNat < 0x80 := UInt8.lt_iff_toNat_lt.mp hx
    exact ⟨x, [], rfl, by omega⟩
  · rw [bytes_of_not_bare hbare, marker, if_pos h]
    exact ⟨_, _, rfl, by rw [toNat_first _ _ (by omega)]; omega⟩

/-- A string takes up no more than a shorter one and its rest can have, if the two begin alike. -/
theorem length_le_of_bytes_append {a b s t : Bytes} (h : bytes a ++ s = bytes b ++ t) :
    b.length ≤ 1 + a.length + a.length + s.length := by
  have htotal := congrArg List.length h
  have hshorter := bytesLength_le a
  have hlonger := length_le_length_bytes b
  rw [List.length_append, List.length_append, length_bytes a] at htotal
  omega

/-- A string that no marker can announce is told apart from every shorter one, if what follows the
shorter one could be announced. -/
theorem bytes_append_ne {a b s t : Bytes} (hlt : a.length < b.length) (hb : ¬ Fits b)
    (hs : Fits s) : bytes a ++ s ≠ bytes b ++ t := by
  intro h
  have hword : 2 ^ 64 ≤ b.length := Nat.le_of_not_lt hb
  have hrest : s.length < 2 ^ 64 := hs
  have hpow : Nat.pow 256 9 = 2 ^ 72 := by decide
  have hlength := length_le_of_bytes_append h
  have hmarked (c : Bytes) (hc : 1 < c.length) : ¬ Bare c := fun hbare => by
    have := hbare.length_eq
    omega
  rw [bytes_of_not_bare (hmarked b (by omega)), List.append_assoc] at h
  rcases Nat.lt_or_ge 55 a.length with hlong | hshort
  · -- the shorter string is long enough for a marker of about the same size
    rw [bytes_of_not_bare (hmarked a (by omega)), List.append_assoc] at h
    have := length_eq_of_marker hlong (Nat.le_of_lt hlt) (by rw [hpow]; omega) h
    omega
  · -- the longer one has nine digits for its length, and so the first octet of a list
    have hlow : 8 < natSize b.length := Nat.lt_of_not_le fun hle => hb (natSize_le_iff.mp hle)
    have hhigh : natSize b.length ≤ 9 := natSize_le_iff.mpr (by rw [hpow]; omega)
    obtain ⟨x, tail, hx, hfirst⟩ := exists_cons_bytes hshort
    rw [hx, marker, if_neg (by omega), List.cons_append, List.cons_append,
      List.cons.injEq, length_minimalBE] at h
    rw [h.1, toNat_first _ _ (by omega)] at hfirst
    omega

/-- **A string of any length is told apart from what follows it**, if what follows is short enough
to be announced. -/
theorem bytes_append_injective_of_fits {a b s t : Bytes} (hs : Fits s) (ht : Fits t)
    (h : bytes a ++ s = bytes b ++ t) : a = b ∧ s = t := by
  by_cases hfits : Fits a ∧ Fits b
  · exact bytes_append_injective hfits.1 hfits.2 h
  · rcases Nat.lt_trichotomy a.length b.length with hlt | heq | hgt
    · exact absurd h (bytes_append_ne hlt (fun hb => hfits ⟨Nat.lt_trans hlt hb, hb⟩) hs)
    · have hmarked : ¬ Fits a ∧ ¬ Fits b := by
        simp only [Fits, heq] at hfits ⊢
        omega
      have hbare {c : Bytes} (hc : ¬ Fits c) : ¬ Bare c := fun hbare => by
        rw [Fits, hbare.length_eq] at hc
        exact hc (by decide)
      rw [bytes_of_not_bare (hbare hmarked.1), bytes_of_not_bare (hbare hmarked.2), heq,
        List.append_assoc, List.append_assoc] at h
      exact List.append_inj (List.append_cancel_left h) heq
    · exact absurd h.symm (bytes_append_ne hgt (fun ha => hfits ⟨ha, Nat.lt_trans hgt ha⟩) ht)

/-! ### Lists of leaves -/

/-- A list of leaves is a list of strings behind each other. -/
theorem encodeAll_map_str (xs : List Bytes) : Item.encodeAll (xs.map .str) = xs.flatMap bytes := by
  induction xs with
  | nil => rw [List.map_nil, Item.encodeAll_nil, List.flatMap_nil]
  | cons x xs ih =>
    rw [List.map_cons, Item.encodeAll_cons, Item.encode_str, ih, List.flatMap_cons]

end ExecutionNode.Rlp
