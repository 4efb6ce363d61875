import ExecutionNode.Proofs.Trie.Order

/-!
# The trie of a map

A map from paths to values has one Merkle Patricia trie, and the root over a list of leaves is the
root of the trie of the map that the leaves make up.

* `Tree` is a trie with its nodes, `Tree.lookup` the map that it stands for, and `Tree.root` its
  root.  A trie is `Canonical` if none of its nodes could be left out or drawn together with
  another.
* `Canonical.eq_of_lookup_eq`: there is at most one canonical trie of a map.
* `exists_canonical`: over leaves of which no path is the beginning of another there is one, and
  `node` writes it.

A branch has no value of its own here, so maps in which one path is the beginning of another have
no trie.
-/

namespace ExecutionNode.Trie

/-! ### Tries with their nodes -/

/-- A trie. -/
inductive Tree where
  /-- Nothing. -/
  | empty
  /-- The rest of a path with its value. -/
  | leaf (path : List Nibble) (value : Bytes)
  /-- A common part of paths. -/
  | extension (path : List Nibble) (child : Tree)
  /-- One trie for each next nibble. -/
  | branch (children : Nibble → Tree)

namespace Tree

/-- The value at a path. -/
def lookup : Tree → List Nibble → Option Bytes
  | empty, _ => none
  | leaf path value, p => if p = path then some value else none
  | extension path child, p =>
    if path <+: p then child.lookup (p.drop path.length) else none
  | branch _, [] => none
  | branch children, n :: p => (children n).lookup p

/-- The encoded node. -/
def encode : Tree → Bytes
  | empty => Rlp.bytes []
  | leaf path value => leafNode path value
  | extension path child => extensionNode path child.encode
  | branch children => branchNode ((List.finRange 16).map fun n => reference (children n).encode)

/-- The root hash. -/
def root (t : Tree) : Hash := keccak256 t.encode

/-- No node could be left out or drawn together with another: an extension has a path and leads to a
branch, and a branch leads at least two ways. -/
inductive Canonical : Tree → Prop where
  /-- Nothing. -/
  | empty : Canonical empty
  /-- A leaf. -/
  | leaf (path : List Nibble) (value : Bytes) : Canonical (leaf path value)
  /-- An extension. -/
  | extension {path : List Nibble} {children : Nibble → Tree} (extends? : path ≠ [])
      (child : Canonical (branch children)) : Canonical (extension path (branch children))
  /-- A branch. -/
  | branch {children : Nibble → Tree} {m n : Nibble} (canonical : ∀ n, Canonical (children n))
      (apart : m ≠ n) (first : children m ≠ empty) (second : children n ≠ empty) :
      Canonical (branch children)

/-! ### Looking up -/

theorem lookup_extension_append (path : List Nibble) (child : Tree) (p : List Nibble) :
    (extension path child).lookup (path ++ p) = child.lookup p := by
  rw [lookup, if_pos (List.prefix_append path p), List.drop_left]

/-- What is found behind an extension stands behind its path. -/
theorem exists_of_lookup_extension {path p : List Nibble} {child : Tree} {value : Bytes}
    (h : (extension path child).lookup p = some value) :
    ∃ q, p = path ++ q ∧ child.lookup q = some value := by
  rw [lookup] at h
  split at h
  next hprefix =>
    obtain ⟨q, rfl⟩ := hprefix
    exact ⟨q, rfl, by rwa [List.drop_left] at h⟩
  next => cases h

/-- There is something to be found in a canonical trie that is not empty. -/
theorem Canonical.exists_lookup {t : Tree} (h : Canonical t) (hne : t ≠ .empty) :
    ∃ p value, t.lookup p = some value := by
  induction h with
  | empty => exact absurd rfl hne
  | leaf path value => exact ⟨path, value, if_pos rfl⟩
  | @extension path children _ _ ih =>
    obtain ⟨p, value, hp⟩ := ih nofun
    exact ⟨path ++ p, value, (lookup_extension_append path _ p).trans hp⟩
  | @branch children m _ _ _ first _ ih =>
    obtain ⟨p, value, hp⟩ := ih m first
    exact ⟨m :: p, value, hp⟩

/-- What is to be found in a canonical branch begins in two ways. -/
theorem Canonical.exists_apart {children : Nibble → Tree} (h : Canonical (.branch children)) :
    ∃ m p v n q w, m ≠ n ∧ (Tree.branch children).lookup (m :: p) = some v ∧
      (Tree.branch children).lookup (n :: q) = some w := by
  cases h with
  | @branch _ m n canonical apart first second =>
    obtain ⟨p, v, hp⟩ := (canonical m).exists_lookup first
    obtain ⟨q, w, hq⟩ := (canonical n).exists_lookup second
    exact ⟨m, p, v, n, q, w, apart, hp, hq⟩

end Tree

/-! ### One trie for each map -/

/-- A common beginning of two paths ends where they part. -/
theorem prefix_of_parting {a path p q : List Nibble} {m n : Nibble} (hm : a <+: path ++ m :: p)
    (hn : a <+: path ++ n :: q) (h : m ≠ n) : a <+: path := by
  induction path generalizing a with
  | nil =>
    cases a with
    | nil => exact List.nil_prefix
    | cons x a => exact absurd ((List.cons_prefix_cons.mp hm).1.symm.trans
        (List.cons_prefix_cons.mp hn).1) h
  | cons x path ih =>
    cases a with
    | nil => exact List.nil_prefix
    | cons y a =>
      obtain ⟨rfl, hm'⟩ := List.cons_prefix_cons.mp hm
      exact List.cons_prefix_cons.mpr ⟨rfl, ih hm' (List.cons_prefix_cons.mp hn).2⟩

namespace Tree

/-- What is found in a trie begins with a path. -/
def Under (path : List Nibble) (t : Tree) : Prop := ∀ p value, t.lookup p = some value → path <+: p

theorem under_extension (path : List Nibble) (child : Tree) :
    Under path (extension path child) := by
  intro p value h
  obtain ⟨q, rfl, -⟩ := exists_of_lookup_extension h
  exact List.prefix_append path q

/-- What is found behind a canonical branch does not begin with more than the way to the branch. -/
theorem Canonical.prefix_of_under {children : Nibble → Tree} (h : Canonical (.branch children))
    {a path : List Nibble}
    (hunder : ∀ p value, (Tree.branch children).lookup p = some value → a <+: path ++ p) :
    a <+: path := by
  obtain ⟨m, p, v, n, q, w, hne, hp, hq⟩ := h.exists_apart
  exact prefix_of_parting (hunder _ _ hp) (hunder _ _ hq) hne

/-- A canonical extension is no branch. -/
theorem Canonical.lookup_ne_extension {children : Nibble → Tree}
    (h : Canonical (.branch children)) {path : List Nibble} (hpath : path ≠ []) (child : Tree) :
    ¬ ∀ p, (Tree.branch children).lookup p = (Tree.extension path child).lookup p := by
  intro hsame
  refine hpath (List.prefix_nil.mp (h.prefix_of_under fun p value hp => ?_))
  exact under_extension path child p value ((hsame p).symm.trans hp)

/-- A canonical extension or branch is no leaf, as it holds two paths. -/
theorem Canonical.lookup_ne_leaf {t : Tree} (h : Canonical t)
    (hnode : (∃ path child, t = .extension path child) ∨ ∃ children, t = .branch children)
    (path : List Nibble) (value : Bytes) :
    ¬ ∀ p, t.lookup p = (Tree.leaf path value).lookup p := by
  intro hsame
  have honly : ∀ p v, t.lookup p = some v → p = path := by
    intro p v hp
    rw [hsame, lookup] at hp
    exact Decidable.byContradiction fun hne => by rw [if_neg hne] at hp; cases hp
  cases h with
  | empty => rcases hnode with ⟨_, _, h⟩ | ⟨_, h⟩ <;> cases h
  | leaf => rcases hnode with ⟨_, _, h⟩ | ⟨_, h⟩ <;> cases h
  | @extension way children _ child =>
    obtain ⟨m, p, v, n, q, w, hne, hp, hq⟩ := child.exists_apart
    have heq := (honly _ _ ((lookup_extension_append way _ _).trans hp)).trans
      (honly _ _ ((lookup_extension_append way _ _).trans hq)).symm
    exact hne (List.head_eq_of_cons_eq (List.append_cancel_left heq))
  | branch canonical apart first second =>
    obtain ⟨m, p, v, n, q, w, hne, hp, hq⟩ :=
      (Canonical.branch canonical apart first second).exists_apart
    exact hne (List.head_eq_of_cons_eq ((honly _ _ hp).trans (honly _ _ hq).symm))

/-- **A map has at most one canonical trie.** -/
theorem Canonical.eq_of_lookup_eq {s t : Tree} (hs : Canonical s) (ht : Canonical t)
    (h : ∀ p, s.lookup p = t.lookup p) : s = t := by
  induction hs generalizing t with
  | empty =>
    refine Classical.byContradiction fun hne => ?_
    obtain ⟨p, value, hp⟩ := ht.exists_lookup (Ne.symm hne)
    rw [← h p] at hp
    cases hp
  | leaf path value =>
    cases ht with
    | empty => exact absurd (h path) (by simp [lookup])
    | leaf path' value' =>
      have hpath := h path
      rw [lookup, if_pos rfl, lookup] at hpath
      split at hpath
      next heq => rw [heq, Option.some.inj hpath]
      next => cases hpath
    | extension extends? child =>
      exact absurd (fun p => (h p).symm) ((Canonical.extension extends? child).lookup_ne_leaf
        (.inl ⟨_, _, rfl⟩) path value)
    | branch canonical apart first second =>
      exact absurd (fun p => (h p).symm)
        ((Canonical.branch canonical apart first second).lookup_ne_leaf (.inr ⟨_, rfl⟩) path value)
  | @extension path children extends? child ih =>
    cases ht with
    | empty =>
      obtain ⟨p, value, hp⟩ := (Canonical.extension extends? child).exists_lookup nofun
      rw [h p] at hp
      cases hp
    | leaf path' value' =>
      exact absurd h ((Canonical.extension extends? child).lookup_ne_leaf (.inl ⟨_, _, rfl⟩) _ _)
    | @extension path' children' extends?' child' =>
      -- Each path is as long as it can be, so each is the beginning of the other.
      have hle : path' <+: path := child.prefix_of_under fun p value hp =>
        under_extension path' _ _ value
          ((h _).symm.trans ((lookup_extension_append path _ p).trans hp))
      have hge : path <+: path' := child'.prefix_of_under fun p value hp =>
        under_extension path _ _ value ((h _).trans ((lookup_extension_append path' _ p).trans hp))
      obtain rfl : path = path' := hge.eq_of_length_le hle.length_le
      congr 1
      refine ih child' fun p => ?_
      rw [← lookup_extension_append path, h, lookup_extension_append]
    | branch canonical apart first second =>
      exact absurd (fun p => (h p).symm)
        ((Canonical.branch canonical apart first second).lookup_ne_extension extends? _)
  | @branch children m n canonical apart first second ih =>
    have hbranch := Canonical.branch canonical apart first second
    cases ht with
    | empty =>
      obtain ⟨p, value, hp⟩ := hbranch.exists_lookup nofun
      rw [h p] at hp
      cases hp
    | leaf path' value' => exact absurd h (hbranch.lookup_ne_leaf (.inr ⟨_, rfl⟩) _ _)
    | extension extends? child => exact absurd h (hbranch.lookup_ne_extension extends? _)
    | branch canonical' apart' first' second' =>
      congr 1
      funext k
      exact ih k (canonical' k) fun p => h (k :: p)

end Tree

/-! ### Common beginnings -/

theorem common_prefix_left (p q : List Nibble) : common p q <+: p := by
  fun_induction common p q with
  | case1 a as bs ih => exact List.cons_prefix_cons.mpr ⟨rfl, ih⟩
  | case2 => exact List.nil_prefix
  | case3 => exact List.nil_prefix

theorem common_prefix_right (p q : List Nibble) : common p q <+: q := by
  fun_induction common p q with
  | case1 a as bs ih => exact List.cons_prefix_cons.mpr ⟨rfl, ih⟩
  | case2 => exact List.nil_prefix
  | case3 => exact List.nil_prefix

theorem prefix_common {a p q : List Nibble} (hp : a <+: p) (hq : a <+: q) : a <+: common p q := by
  induction a generalizing p q with
  | nil => exact List.nil_prefix
  | cons x a ih =>
    obtain ⟨p, rfl⟩ := hp
    obtain ⟨q, rfl⟩ := hq
    rw [List.cons_append, List.cons_append, common, if_pos rfl]
    exact List.cons_prefix_cons.mpr
      ⟨rfl, ih (List.prefix_append a p) (List.prefix_append a q)⟩

/-- What is drawn together so far is a beginning of it before, and of each path drawn in. -/
theorem foldl_common_prefix (leaves : List Leaf) (path : List Nibble) :
    leaves.foldl (fun path leaf => common path leaf.path) path <+: path ∧
      ∀ leaf ∈ leaves,
        leaves.foldl (fun path leaf => common path leaf.path) path <+: leaf.path := by
  induction leaves generalizing path with
  | nil => exact ⟨List.prefix_rfl, nofun⟩
  | cons leaf leaves ih =>
    obtain ⟨hstart, hrest⟩ := ih (common path leaf.path)
    refine ⟨hstart.trans (common_prefix_left path leaf.path), List.forall_mem_cons.mpr ⟨?_, hrest⟩⟩
    exact hstart.trans (common_prefix_right path leaf.path)

/-- The common beginning is one of each path. -/
theorem shared_prefix {leaf : Leaf} {leaves : List Leaf} (h : leaf ∈ leaves) :
    shared leaves <+: leaf.path := by
  cases leaves with
  | nil => cases h
  | cons first leaves =>
    obtain ⟨hfirst, hrest⟩ := foldl_common_prefix leaves first.path
    exact (List.forall_mem_cons.mpr ⟨hfirst, hrest⟩ : ∀ l ∈ first :: leaves, _ <+: l.path) leaf h

/-- There is no longer one. -/
theorem prefix_shared {a : List Nibble} {leaves : List Leaf} (hne : leaves ≠ [])
    (h : ∀ leaf ∈ leaves, a <+: leaf.path) : a <+: shared leaves := by
  cases leaves with
  | nil => exact absurd rfl hne
  | cons first leaves =>
    obtain ⟨hfirst, hrest⟩ := List.forall_mem_cons.mp h
    rw [shared]
    clear h hne
    generalize first.path = path at hfirst
    induction leaves generalizing path with
    | nil => exact hfirst
    | cons leaf leaves ih =>
      obtain ⟨hleaf, hrest⟩ := List.forall_mem_cons.mp hrest
      exact ih hrest _ (prefix_common hfirst hleaf)

/-! ### Leaves on separate paths -/

/-- No path is the beginning of another. -/
def Separate (leaves : List Leaf) : Prop :=
  leaves.Pairwise fun a b => ¬ a.path <+: b.path ∧ ¬ b.path <+: a.path

/-- The leaves without a beginning of their paths. -/
def after (path : List Nibble) (leaves : List Leaf) : List Leaf :=
  leaves.map fun leaf => ⟨leaf.path.drop path.length, leaf.value⟩

theorem mem_after {path p : List Nibble} {value : Bytes} {leaves : List Leaf}
    (h : ∀ leaf ∈ leaves, path <+: leaf.path) :
    ⟨p, value⟩ ∈ after path leaves ↔ ⟨path ++ p, value⟩ ∈ leaves := by
  rw [after, List.mem_map]
  constructor
  · rintro ⟨leaf, hmem, heq⟩
    obtain ⟨q, hq⟩ := h leaf hmem
    cases leaf with
    | mk whole value =>
      obtain rfl : path ++ q = whole := hq
      rw [List.drop_left] at heq
      cases heq
      exact hmem
  · intro hmem
    exact ⟨_, hmem, by rw [List.drop_left]⟩

/-- A leaf is below a nibble if its path starts with it. -/
theorem below_step_eq_some {n : Nibble} {leaf kept : Leaf} :
    (match leaf.path with
      | m :: path => if m = n then some (⟨path, leaf.value⟩ : Leaf) else none
      | [] => none) = some kept ↔ leaf = ⟨n :: kept.path, kept.value⟩ := by
  obtain ⟨whole, value⟩ := leaf
  cases whole with
  | nil => simp
  | cons m path =>
    by_cases hm : m = n
    · obtain ⟨_, _⟩ := kept
      simp [hm]
    · simp [hm]

theorem mem_below {n : Nibble} {p : List Nibble} {value : Bytes} {leaves : List Leaf} :
    ⟨p, value⟩ ∈ below n leaves ↔ ⟨n :: p, value⟩ ∈ leaves := by
  rw [below, List.mem_filterMap]
  constructor
  · rintro ⟨leaf, hmem, hstep⟩
    exact below_step_eq_some.mp hstep ▸ hmem
  · exact fun hmem => ⟨_, hmem, if_pos rfl⟩

theorem separate_after {path : List Nibble} {leaves : List Leaf} (h : Separate leaves)
    (hpath : ∀ leaf ∈ leaves, path <+: leaf.path) : Separate (after path leaves) := by
  rw [Separate, after, List.pairwise_map]
  refine h.imp_of_mem fun {a b} ha hb hab => ?_
  obtain ⟨p, hp⟩ := hpath a ha
  obtain ⟨q, hq⟩ := hpath b hb
  rw [← hp, ← hq, List.prefix_append_right_inj, List.prefix_append_right_inj] at hab
  rwa [← hp, ← hq, List.drop_left, List.drop_left]

theorem separate_below {leaves : List Leaf} (h : Separate leaves) (n : Nibble) :
    Separate (below n leaves) := by
  rw [Separate, below, List.pairwise_filterMap]
  refine h.imp fun {a b} hab kept hkept other hother => ?_
  obtain rfl := below_step_eq_some.mp hkept
  obtain rfl := below_step_eq_some.mp hother
  simpa [List.cons_prefix_cons] using hab

/-- Of two leaves or more, no path ends with the common beginning. -/
theorem Separate.nil_notMem_after {a b : Leaf} {leaves : List Leaf}
    (h : Separate (a :: b :: leaves)) (value : Bytes) :
    ⟨[], value⟩ ∉ after (shared (a :: b :: leaves)) (a :: b :: leaves) := by
  intro hmem
  rw [mem_after fun _ => shared_prefix, List.append_nil] at hmem
  obtain ⟨hfirst, hrest⟩ := List.pairwise_cons.mp h
  have ha := shared_prefix (List.mem_cons_self (a := a) (l := b :: leaves))
  have hb := shared_prefix (List.mem_cons_of_mem a (List.mem_cons_self (a := b) (l := leaves)))
  rcases List.mem_cons.mp hmem with heq | hmem
  · exact (hfirst b List.mem_cons_self).1 (heq ▸ hb)
  · exact (hfirst _ hmem).2 ha

/-- Behind the common beginning of two leaves or more, two paths part. -/
theorem Separate.exists_apart {a b : Leaf} {leaves : List Leaf} (h : Separate (a :: b :: leaves)) :
    ∃ m p v n q w, m ≠ n ∧
      ⟨m :: p, v⟩ ∈ after (shared (a :: b :: leaves)) (a :: b :: leaves) ∧
      ⟨n :: q, w⟩ ∈ after (shared (a :: b :: leaves)) (a :: b :: leaves) := by
  generalize hall : a :: b :: leaves = all
  have hnil := hall ▸ h.nil_notMem_after
  obtain ⟨whole, v⟩ := a
  have ha : ⟨whole, v⟩ ∈ all := hall ▸ List.mem_cons_self
  obtain ⟨path, hpath⟩ := shared_prefix ha
  cases path with
  | nil => exact absurd ((mem_after fun _ => shared_prefix).mpr (hpath ▸ ha)) (hnil v)
  | cons m p =>
    refine Classical.byContradiction fun hnone => ?_
    -- Otherwise all paths go on with the nibble of the first, and share it.
    have hlonger : shared all ++ [m] <+: shared all := by
      refine prefix_shared (hall ▸ List.cons_ne_nil _ _) fun ⟨other, w⟩ hmem => ?_
      obtain ⟨rest, hrest⟩ := shared_prefix hmem
      dsimp only at hrest
      subst hrest
      have hrest : ⟨rest, w⟩ ∈ after (shared all) all :=
        (mem_after fun _ => shared_prefix).mpr hmem
      cases rest with
      | nil => exact absurd hrest (hnil w)
      | cons n q =>
        have hsame : m = n := Classical.byContradiction fun hne => hnone
          ⟨m, p, v, n, q, w, hne, (mem_after fun _ => shared_prefix).mpr (hpath ▸ ha), hrest⟩
        exact (List.prefix_append_right_inj _).mpr (hsame ▸ List.prefix_append [m] q)
    have hlength := hlonger.length_le
    rw [List.length_append] at hlength
    exact absurd hlength (Nat.not_succ_le_self _)

/-! ### The trie that is written -/

/-- The leaves are what is to be found. -/
def Tree.Holds (t : Tree) (leaves : List Leaf) : Prop :=
  ∀ p value, t.lookup p = some value ↔ ⟨p, value⟩ ∈ leaves

/-- Nothing refers to itself. -/
theorem reference_empty : reference (Rlp.bytes []) = Rlp.bytes [] := if_pos (by decide)

/-- The node over two leaves or more. -/
theorem node_of_two (depth : Nat) (a b : Leaf) (rest : List Leaf) :
    node (depth + 1) (a :: b :: rest) =
      (let path := shared (a :: b :: rest)
      let children := branchNode ((List.finRange 16).map fun n =>
        reference (node depth (below n (after path (a :: b :: rest)))))
      if path.isEmpty then children else extensionNode path children) := by
  refine congrArg (fun slots => if (shared (a :: b :: rest)).isEmpty then branchNode slots
      else extensionNode (shared (a :: b :: rest)) (branchNode slots))
    (List.map_congr_left fun n _ => ?_)
  split
  next heq =>
    -- A nibble without leaves has the slot of the empty node.
    rw [after, heq]
    cases depth <;> exact reference_empty.symm
  next => rfl

/-- The branch over leaves that are held by a child for each nibble. -/
theorem holds_branch {children : Nibble → Tree} {leaves : List Leaf}
    (hnil : ∀ value, ⟨[], value⟩ ∉ leaves) (h : ∀ n, (children n).Holds (below n leaves)) :
    (Tree.branch children).Holds leaves := by
  intro p value
  cases p with
  | nil => exact ⟨nofun, fun hmem => absurd hmem (hnil value)⟩
  | cons n p => exact (h n p value).trans mem_below

/-- The extension over leaves that share a beginning. -/
theorem holds_extension {path : List Nibble} {child : Tree} {leaves : List Leaf}
    (hpath : ∀ leaf ∈ leaves, path <+: leaf.path) (h : child.Holds (after path leaves)) :
    (Tree.extension path child).Holds leaves := by
  intro p value
  constructor
  · intro hp
    obtain ⟨q, rfl, hq⟩ := Tree.exists_of_lookup_extension hp
    exact (mem_after hpath).mp ((h q value).mp hq)
  · intro hmem
    obtain ⟨q, rfl⟩ := hpath _ hmem
    rw [Tree.lookup_extension_append]
    exact (h q value).mpr ((mem_after hpath).mpr hmem)

/-- A branch over two leaves that part is canonical if its children are. -/
theorem canonical_branch {children : Nibble → Tree} {leaves : List Leaf}
    (hcanonical : ∀ n, (children n).Canonical) (hholds : (Tree.branch children).Holds leaves)
    {m n : Nibble} {p q : List Nibble} {v w : Bytes} (hne : m ≠ n)
    (hm : ⟨m :: p, v⟩ ∈ leaves) (hn : ⟨n :: q, w⟩ ∈ leaves) :
    (Tree.branch children).Canonical := by
  have hfilled : ∀ {k r u}, ⟨k :: r, u⟩ ∈ leaves → children k ≠ .empty := by
    intro k r u hmem hempty
    have hfound : (children k).lookup r = some u := (hholds (k :: r) u).mpr hmem
    rw [hempty] at hfound
    cases hfound
  exact .branch hcanonical hne (hfilled hm) (hfilled hn)

/-- The node over two leaves or more, from those below. -/
theorem exists_canonical_of_below {depth : Nat} {a b : Leaf} {rest : List Leaf}
    (h : Separate (a :: b :: rest))
    (hbelow : ∀ n, ∃ t : Tree, t.Canonical ∧
      t.Holds (below n (after (shared (a :: b :: rest)) (a :: b :: rest))) ∧
      t.encode = node depth (below n (after (shared (a :: b :: rest)) (a :: b :: rest)))) :
    ∃ t : Tree, t.Canonical ∧ t.Holds (a :: b :: rest) ∧
      t.encode = node (depth + 1) (a :: b :: rest) := by
  choose children hcanonical hholds hencode using hbelow
  obtain ⟨m, p, v, n, q, w, hne, hm, hn⟩ := h.exists_apart
  have hbranch := holds_branch h.nil_notMem_after hholds
  have hcanonical := canonical_branch hcanonical hbranch hne hm hn
  have hwritten : (Tree.branch children).encode = branchNode ((List.finRange 16).map fun n =>
      reference (node depth (below n (after (shared (a :: b :: rest)) (a :: b :: rest))))) := by
    simp only [Tree.encode, hencode]
  have hextension := holds_extension (fun _ => shared_prefix) hbranch
  rw [node_of_two]
  generalize shared (a :: b :: rest) = path at *
  cases path with
  | nil =>
    -- The branch is the whole trie if there is no common beginning.
    refine ⟨.branch children, hcanonical, fun p value => ?_, hwritten⟩
    rw [← hextension p value, ← Tree.lookup_extension_append [] _ p, List.nil_append]
  | cons x path =>
    refine ⟨.extension (x :: path) (.branch children), .extension nofun hcanonical, hextension, ?_⟩
    exact congrArg (extensionNode (x :: path)) hwritten

/-- **The node over leaves on separate paths** is that of the canonical trie that holds them. -/
theorem exists_canonical : ∀ (depth : Nat) (leaves : List Leaf), Separate leaves →
    (∀ leaf ∈ leaves, leaf.path.length ≤ depth) →
    ∃ t : Tree, t.Canonical ∧ t.Holds leaves ∧ t.encode = node depth leaves
  | depth, [], _, _ => ⟨.empty, .empty, fun _ _ => by simp [Tree.lookup], by cases depth <;> rfl⟩
  | depth, [⟨path, value⟩], _, _ =>
    ⟨.leaf path value, .leaf _ _, fun _ _ => by simp [Tree.lookup, eq_comm],
      by cases depth <;> rfl⟩
  | 0, a :: b :: rest, h, hdepth => by
    have ha := List.length_eq_zero_iff.mp (Nat.le_zero.mp (hdepth a List.mem_cons_self))
    exact absurd (ha ▸ List.nil_prefix)
      ((List.pairwise_cons.mp h).1 b List.mem_cons_self).1
  | depth + 1, a :: b :: rest, h, hdepth => exists_canonical_of_below h fun n => by
    refine exists_canonical depth _
      (separate_below (separate_after h fun _ => shared_prefix) n) fun leaf hleaf => ?_
    have hmem := (mem_after fun _ => shared_prefix).mp (mem_below.mp hleaf)
    have := hdepth _ hmem
    simp only [List.length_append, List.length_cons] at this
    omega

/-- A path is no longer than the depth that the root counts with. -/
theorem length_le_foldl_max {leaf : Leaf} {leaves : List Leaf} (h : leaf ∈ leaves) (start : Nat) :
    leaf.path.length ≤ leaves.foldl (fun n leaf => max n leaf.path.length) start := by
  have hstart : ∀ (leaves : List Leaf) (start : Nat),
      start ≤ leaves.foldl (fun n leaf => max n leaf.path.length) start := by
    intro leaves
    induction leaves with
    | nil => exact Nat.le_refl
    | cons leaf leaves ih => exact fun start => Nat.le_trans (Nat.le_max_left _ _) (ih _)
  induction leaves generalizing start with
  | nil => cases h
  | cons first leaves ih =>
    rcases List.mem_cons.mp h with rfl | h
    · exact Nat.le_trans (Nat.le_max_right _ _) (hstart leaves _)
    · exact ih h _

/-- **The root over leaves on separate paths** is that of the canonical trie that holds them. -/
theorem exists_canonical_root {leaves : List Leaf} (h : Separate leaves) :
    ∃ t : Tree, t.Canonical ∧ t.Holds leaves ∧ t.root = root leaves := by
  obtain ⟨t, hcanonical, hholds, hencode⟩ := exists_canonical _ leaves h fun leaf hmem =>
    Nat.le_succ_of_le (length_le_foldl_max hmem 0)
  exact ⟨t, hcanonical, hholds, congrArg keccak256 hencode⟩

end ExecutionNode.Trie
