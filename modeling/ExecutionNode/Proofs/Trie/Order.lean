import ExecutionNode.Proofs.Rlp.Strings
import ExecutionNode.Trie.Ordered
import Mathlib.Data.List.Basic

/-!
# The leaves of a list

What the leaves say about the list that they were made of.

* `position_lt`, `exists_position_eq`: each index of the list is visited.
* `orderedLeaves_map`: only the encoded items matter.
* `orderedLeaves_injective`: the leaves determine the encoded items and their order.
* `ascending_orderedLeaves`: the paths rise from leaf to leaf, as a builder of tries needs it.
-/

namespace ExecutionNode.Trie

/-! ### Every index has its turn -/

/-- From 128 on a step visits its own index. -/
theorem position_of_gt {i n : Nat} (h : i > 0x7f) : position i n = i := if_pos h

/-- Before, it visits the next one, and zero in the last such step. -/
theorem position_cases (i n : Nat) :
    (0x80 ≤ i ∧ position i n = i) ∨
      (i < 0x80 ∧ ((i + 1 < 0x80 ∧ i + 1 ≠ n ∧ position i n = i + 1) ∨
        ((i = 0x7f ∨ i + 1 = n) ∧ position i n = 0))) := by
  unfold position
  split
  · exact .inl ⟨by omega, rfl⟩
  · refine .inr ⟨by omega, ?_⟩
    split
    next h => exact .inr ⟨h, rfl⟩
    next h => exact .inl ⟨by omega, by omega, rfl⟩

/-- A visited index is one of the list. -/
theorem position_lt {i n : Nat} (h : i < n) : position i n < n := by
  have := position_cases i n
  omega

/-- Each index of the list is visited. -/
theorem exists_position_eq {j n : Nat} (h : j < n) : ∃ i < n, position i n = j := by
  rcases Nat.eq_zero_or_pos j with rfl | hpos
  · -- Zero comes after the last index below 128.
    refine ⟨min 0x7f (n - 1), by omega, ?_⟩
    rw [position, if_neg (by omega), if_pos (by omega)]
  · by_cases hlarge : j > 0x7f
    · exact ⟨j, h, position_of_gt hlarge⟩
    · refine ⟨j - 1, by omega, ?_⟩
      rw [position, if_neg (by omega), if_neg (by omega)]
      omega

/-! ### The leaves, one by one -/

/-- The leaf that is visited in step `i` over a list of encoded items. -/
def leafAt (items : List Bytes) (i : Nat) : Leaf :=
  ⟨indexPath (position i items.length), items[position i items.length]?.getD []⟩

section leaves

variable {α β : Type}

/-- The leaves of a list are those visited step by step. -/
theorem orderedLeaves_eq (encode : α → Bytes) (items : List α) :
    orderedLeaves encode items = (List.range items.length).map (leafAt (items.map encode)) := by
  refine List.filterMap_eq_map_iff_forall_eq_some.mpr fun i hi => ?_
  have hlt : position i items.length < items.length := position_lt (List.mem_range.mp hi)
  simp [leafAt, hlt]

theorem length_orderedLeaves (encode : α → Bytes) (items : List α) :
    (orderedLeaves encode items).length = items.length := by
  rw [orderedLeaves_eq, List.length_map, List.length_range]

/-- Items may be encoded in two steps. -/
theorem orderedLeaves_map (encode : β → Bytes) (f : α → β) (items : List α) :
    orderedLeaves encode (items.map f) = orderedLeaves (fun item => encode (f item)) items := by
  rw [orderedLeaves_eq, orderedLeaves_eq, List.length_map, List.map_map]
  rfl

theorem orderedRoot_map (encode : β → Bytes) (f : α → β) (items : List α) :
    orderedRoot encode (items.map f) = orderedRoot (fun item => encode (f item)) items :=
  congrArg root (orderedLeaves_map encode f items)

/-- **The leaves determine the encoded items**, in their order. -/
theorem orderedLeaves_injective {encode : α → Bytes} {xs ys : List α}
    (h : orderedLeaves encode xs = orderedLeaves encode ys) : xs.map encode = ys.map encode := by
  have hlength : xs.length = ys.length := by
    rw [← length_orderedLeaves encode xs, h, length_orderedLeaves]
  rw [orderedLeaves_eq, orderedLeaves_eq, hlength] at h
  refine List.ext_getElem (by simpa using hlength) fun j hx hy => ?_
  rw [List.length_map] at hx hy
  obtain ⟨i, hi, rfl⟩ := exists_position_eq hy
  have hleaf := List.map_inj_left.mp h i (List.mem_range.mpr hi)
  have hvalue := congrArg Leaf.value hleaf
  simpa [leafAt, hlength, hx, hy] using hvalue

end leaves

/-! ### The order of the paths -/

/-- A lower octet gives a lower pair of nibbles. -/
theorem lex_nibbles {a b : Bytes} (h : List.Lex (· < ·) a b) :
    List.Lex (· < ·) (nibbles a) (nibbles b) := by
  induction h with
  | nil => exact .nil
  | @rel x s y t hlt =>
    have hlt := UInt8.lt_iff_toNat_lt.mp hlt
    have hx := x.toNat_lt
    have hy := y.toNat_lt
    -- Either the upper halves differ, or they agree and the lower ones decide.
    rcases Nat.lt_or_ge (x.toNat / 16) (y.toNat / 16) with hhigh | hhigh
    · refine .rel (Fin.lt_def.mpr ?_)
      simp only [Fin.val_ofNat]
      omega
    · have hsame : x.toNat / 16 = y.toNat / 16 := by omega
      simp only [nibbles, List.flatMap_cons, List.cons_append, hsame]
      refine .cons (.rel (Fin.lt_def.mpr ?_))
      simp only [Fin.val_ofNat]
      omega
  | cons _ ih => exact .cons (.cons ih)

/-- An index below 128 is written with one octet; that of zero is the greatest of them. -/
theorem nat_of_lt_128 {k : Nat} (h : k < 0x80) :
    ∃ x, Rlp.nat k = [x] ∧ x.toNat = if k = 0 then 0x80 else k := by
  rcases Nat.eq_zero_or_pos k with rfl | hpos
  · exact ⟨0x80, Rlp.nat_zero, rfl⟩
  · refine ⟨UInt8.ofNat k, Rlp.nat_of_lt hpos h, ?_⟩
    rw [toNat_ofNat_octet, if_neg (by omega), Nat.mod_eq_of_lt (by omega)]

/-- Of two indices from 128 on the smaller one is written first. -/
theorem lex_nat_of_ge {i j : Nat} (hi : 0x80 ≤ i) (hij : i < j) (hj : j < UInt64.size) :
    List.Lex (· < ·) (Rlp.nat i) (Rlp.nat j) := by
  have hsize := natSize_le_eight hj
  have hmono := natSize_mono (Nat.le_of_lt hij)
  rw [Rlp.nat_of_ge hi (by omega), Rlp.nat_of_ge (by omega) (by omega)]
  rcases Nat.eq_or_lt_of_le hmono with hsame | hless
  · rw [hsame]
    exact .cons (lex_minimalBE hij hsame)
  · refine .rel (UInt8.lt_iff_toNat_lt.mpr ?_)
    rw [toNat_ofNat_octet, toNat_ofNat_octet]
    omega

/-- The indices are written in the order of the visits. -/
theorem lex_nat_position {i j n : Nat} (hij : i < j) (hj : j < n) (hn : n ≤ UInt64.size) :
    List.Lex (· < ·) (Rlp.nat (position i n)) (Rlp.nat (position j n)) := by
  have hj64 : j < UInt64.size := Nat.lt_of_lt_of_le hj hn
  rcases position_cases i n with ⟨hi, heq⟩ | ⟨hi, hlow⟩
  · rw [heq, position_of_gt (by omega)]
    exact lex_nat_of_ge hi hij hj64
  · obtain ⟨x, hx, hxval⟩ := nat_of_lt_128 (k := position i n) (by omega)
    rcases position_cases j n with ⟨hj', heq⟩ | ⟨hj', hlow'⟩
    · have hsize := natSize_le_eight hj64
      have hpos := natSize_pos (n := j) (by omega)
      rw [hx, heq, Rlp.nat_of_ge hj' (by omega)]
      refine .rel (UInt8.lt_iff_toNat_lt.mpr ?_)
      rw [hxval, toNat_ofNat_octet]
      split <;> omega
    · obtain ⟨y, hy, hyval⟩ := nat_of_lt_128 (k := position j n) (by omega)
      rw [hx, hy]
      refine .rel (UInt8.lt_iff_toNat_lt.mpr ?_)
      rw [hxval, hyval]
      -- Step `i` is not the last one, so its index is the next; that of `j` may also be zero.
      split <;> split <;> omega

/-- The paths rise from leaf to leaf. -/
def Ascending (leaves : List Leaf) : Prop :=
  leaves.Pairwise fun leaf next => List.Lex (· < ·) leaf.path next.path

/-- **The leaves of a list rise**, for as many items as can be counted with 64 bits. -/
theorem ascending_orderedLeaves {α : Type} (encode : α → Bytes) {items : List α}
    (h : items.length ≤ UInt64.size) : Ascending (orderedLeaves encode items) := by
  rw [Ascending, orderedLeaves_eq, List.pairwise_map]
  refine List.Pairwise.imp_of_mem ?_ List.pairwise_lt_range
  intro i j _ hj hij
  rw [List.mem_range] at hj
  simpa [leafAt, indexPath] using lex_nibbles (lex_nat_position hij hj h)

/-- A root over one of two rising lists of leaves is not also a root over the other. -/
def Distinguished (leaves other : List Leaf) : Prop :=
  Ascending leaves → Ascending other → root leaves = root other → leaves = other

/-- **The root commits to the list**: to its items and their order, if the encodings of two items
differ and the two tries are told apart by their roots. -/
theorem orderedRoot_injective {α : Type} {encode : α → Bytes} {xs ys : List α}
    (hencode : Function.Injective encode) (hxs : xs.length ≤ UInt64.size)
    (hys : ys.length ≤ UInt64.size)
    (hroots : Distinguished (orderedLeaves encode xs) (orderedLeaves encode ys))
    (h : orderedRoot encode xs = orderedRoot encode ys) : xs = ys := by
  have hleaves := hroots (ascending_orderedLeaves encode hxs) (ascending_orderedLeaves encode hys) h
  exact List.map_injective_iff.mpr hencode (orderedLeaves_injective hleaves)

end ExecutionNode.Trie
