import ExecutionNode.Trie

/-!
# Roots over lists

A list is committed to by the trie that maps the encoding of each index to the encoding of the
item there.  The leaves are visited in the order of their paths: the single octets `0x01` to
`0x7f` come before `0x80`, which encodes zero, and all longer encodings come after it.
`position i n` is the index visited in step `i` of `n`.
-/

namespace ExecutionNode.Trie

/-- The index whose encoding is the `i`-th in order among the encodings of the indices below
`n`. -/
def position (i n : Nat) : Nat :=
  if i > 0x7f then i else if i = 0x7f ∨ i + 1 = n then 0 else i + 1

/-- The path of an index. -/
def indexPath (i : Nat) : List Nibble := nibbles (Rlp.nat i)

/-- The leaves of a list, in the order of their paths. -/
def orderedLeaves {α : Type} (encode : α → Bytes) (items : List α) : List Leaf :=
  let table := items.toArray
  (List.range items.length).filterMap fun i =>
    let index := position i items.length
    table[index]?.map fun item => ⟨indexPath index, encode item⟩

/-- The root over a list. -/
def orderedRoot {α : Type} (encode : α → Bytes) (items : List α) : Hash :=
  root (orderedLeaves encode items)

/-- The root of the empty trie. -/
def emptyRoot : Hash := root []

end ExecutionNode.Trie
