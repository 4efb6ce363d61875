import ExecutionNode.Proofs.Trie.Canonical
import Mathlib.Data.List.Perm.Subperm

/-!
# What the root over a list is the root of

The steps of `orderedLeaves` visit each index of the list once, and hand over one leaf each: the
encoding of the index they visit with the encoded item there.

* `position_permutes`: the visited indices are those of the list in another order.
* `eq_of_prefix_indexPath`: the path of an index is not the beginning of that of another.
* `orderedRoot_commits`: the leaves are handed over in the order of their paths, and the root is
  that of the only canonical trie that maps the path of each index to the encoded item there.
-/

namespace ExecutionNode.Trie

/-! ### The visits -/

/-- **Each index of the list is visited once.** -/
theorem position_permutes (n : Nat) :
    ((List.range n).map fun i => position i n).Perm (List.range n) := by
  have hcovers : List.range n ⊆ (List.range n).map fun i => position i n := by
    intro j hj
    obtain ⟨i, hi, heq⟩ := exists_position_eq (List.mem_range.mp hj)
    exact List.mem_map.mpr ⟨i, List.mem_range.mpr hi, heq⟩
  -- There are as many steps as indices, so none of them is visited twice.
  have hsub := List.subperm_of_subset List.nodup_range hcovers
  exact (hsub.perm_of_length_le (Nat.le_of_eq (List.length_map _))).symm

/-- The leaf that is handed over in a step. -/
def visit {α : Type} (encode : α → Bytes) (items : List α) (i : Fin items.length) : Leaf :=
  ⟨indexPath (position i items.length),
    encode (items.get ⟨position i items.length, position_lt i.isLt⟩)⟩

/-- Each step hands over its leaf. -/
theorem orderedLeaves_eq_visits {α : Type} (encode : α → Bytes) (items : List α) :
    orderedLeaves encode items = (List.finRange items.length).map (visit encode items) := by
  rw [orderedLeaves_eq, ← List.map_coe_finRange_eq_range, List.map_map]
  refine List.map_congr_left fun i _ => ?_
  simp [leafAt, visit, position_lt i.isLt]

/-! ### The paths of indices -/

theorem prefix_of_nibbles_prefix {a b : Bytes} (h : nibbles a <+: nibbles b) : a <+: b := by
  induction a generalizing b with
  | nil => exact List.nil_prefix
  | cons x a ih =>
    cases b with
    | nil => exact absurd (List.prefix_nil.mp h) (List.cons_ne_nil _ _)
    | cons y b =>
      obtain ⟨hhigh, h⟩ := List.cons_prefix_cons.mp h
      obtain ⟨hlow, h⟩ := List.cons_prefix_cons.mp h
      have hx := x.toNat_lt
      have hy := y.toNat_lt
      simp only [Fin.ext_iff, Fin.val_ofNat] at hhigh hlow
      have hxy : x = y := UInt8.toNat_inj.mp (by omega)
      exact List.cons_prefix_cons.mpr ⟨hxy, ih h⟩

/-- The encoding of an index is not the beginning of that of another. -/
theorem eq_of_prefix_indexPath {i j : Nat} (hi : i < UInt64.size) (hj : j < UInt64.size)
    (h : indexPath i <+: indexPath j) : i = j := by
  have hfits : ∀ {k}, k < UInt64.size → Rlp.Fits (minimalBE k) := by
    intro k hk
    rw [Rlp.Fits, length_minimalBE]
    exact Nat.lt_of_le_of_lt (natSize_le_eight hk) (by decide)
  obtain ⟨rest, hrest⟩ := prefix_of_nibbles_prefix h
  rw [← List.append_nil (Rlp.nat j)] at hrest
  exact minimalBE_injective (Rlp.bytes_append_injective (hfits hi) (hfits hj) hrest).1

/-- The leaves of a list are on separate paths. -/
theorem separate_orderedLeaves {α : Type} (encode : α → Bytes) {items : List α}
    (h : items.length ≤ UInt64.size) : Separate (orderedLeaves encode items) := by
  rw [Separate, orderedLeaves_eq, List.pairwise_map]
  have hvisits := (position_permutes items.length).nodup_iff.mpr List.nodup_range
  rw [List.Nodup, List.pairwise_map] at hvisits
  refine hvisits.imp_of_mem fun {i j} hi hj hne => ?_
  have hindex : ∀ {k}, k ∈ List.range items.length → position k items.length < UInt64.size :=
    fun hk => Nat.lt_of_lt_of_le (position_lt (List.mem_range.mp hk)) h
  simp only [leafAt, List.length_map]
  exact ⟨fun hprefix => hne (eq_of_prefix_indexPath (hindex hi) (hindex hj) hprefix),
    fun hprefix => hne (eq_of_prefix_indexPath (hindex hj) (hindex hi) hprefix).symm⟩

/-! ### The map of a list -/

/-- The path of each index leads to the encoded item there, and no other path leads anywhere. -/
def Tree.Maps {α : Type} (t : Tree) (encode : α → Bytes) (items : List α) : Prop :=
  ∀ path value, t.lookup path = some value ↔
    ∃ i : Fin items.length, path = indexPath i ∧ value = encode (items.get i)

/-- The leaves of a list are its items at the paths of their indices. -/
theorem mem_orderedLeaves {α : Type} (encode : α → Bytes) (items : List α) (path : List Nibble)
    (value : Bytes) : ⟨path, value⟩ ∈ orderedLeaves encode items ↔
      ∃ i : Fin items.length, path = indexPath i ∧ value = encode (items.get i) := by
  rw [orderedLeaves_eq_visits, List.mem_map]
  constructor
  · rintro ⟨i, -, heq⟩
    obtain ⟨rfl, rfl⟩ := Leaf.mk.inj heq
    exact ⟨⟨position i items.length, position_lt i.isLt⟩, rfl, rfl⟩
  · rintro ⟨⟨j, hj⟩, rfl, rfl⟩
    obtain ⟨i, hi, rfl⟩ := exists_position_eq hj
    exact ⟨⟨i, hi⟩, List.mem_finRange _, rfl⟩

/-- **The root over a list commits to each item at its own index.**  The steps visit each index
once, each of them hands over the leaf of the index it visits, and the paths rise from step to
step; the root is that of the one canonical trie which maps the path of each index to the encoded
item there. -/
theorem orderedRoot_commits {α : Type} (encode : α → Bytes) {items : List α}
    (h : items.length ≤ UInt64.size) :
    ((List.range items.length).map fun i => position i items.length).Perm
        (List.range items.length) ∧
      orderedLeaves encode items = (List.finRange items.length).map (visit encode items) ∧
      Ascending (orderedLeaves encode items) ∧
      ∃ t : Tree, t.Canonical ∧ t.Maps encode items ∧ orderedRoot encode items = t.root ∧
        ∀ s : Tree, s.Canonical → s.Maps encode items → s = t := by
  refine ⟨position_permutes items.length, orderedLeaves_eq_visits encode items,
    ascending_orderedLeaves encode h, ?_⟩
  obtain ⟨t, hcanonical, hholds, hroot⟩ := exists_canonical_root (separate_orderedLeaves encode h)
  have hmaps : t.Maps encode items := fun path value =>
    (hholds path value).trans (mem_orderedLeaves encode items path value)
  refine ⟨t, hcanonical, hmaps, hroot.symm, fun s hs hsmaps => ?_⟩
  exact hs.eq_of_lookup_eq hcanonical fun path =>
    Option.ext fun value => (hsmaps path value).trans (hmaps path value).symm

/-- The leaf of zero is handed over between those of 127 and of 128. -/
theorem orderedRoot_commits_beyond_127 :
    (List.range 200).length ≤ UInt64.size ∧
      ∃ t : Tree, t.Canonical ∧ t.Maps Rlp.nat (List.range 200) ∧
        orderedRoot Rlp.nat (List.range 200) = t.root := by
  have hlength : (List.range 200).length ≤ UInt64.size := by
    rw [List.length_range]
    decide
  obtain ⟨-, -, -, t, hcanonical, hmaps, hroot, -⟩ := orderedRoot_commits Rlp.nat hlength
  exact ⟨hlength, t, hcanonical, hmaps, hroot⟩

end ExecutionNode.Trie
