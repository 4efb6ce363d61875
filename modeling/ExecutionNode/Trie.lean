import ExecutionNode.Keccak
import ExecutionNode.Rlp

/-!
# Merkle Patricia tries

The root of the trie over a list of leaves.  A leaf is a path of nibbles with a value; the
paths of one trie are distinct and none is the beginning of another, as is the case for the
encodings of numbers.  A node is written as a tree of recursive length prefixes; a node whose
encoding has 32 octets or more is referred to by its hash, a shorter one stands in its parent
itself.
-/

namespace ExecutionNode.Trie

/-- Half an octet. -/
abbrev Nibble := Fin 16

/-- The two halves of each octet, the higher one first. -/
def nibbles (bytes : Bytes) : List Nibble :=
  bytes.flatMap fun b => [Fin.ofNat 16 (b.toNat / 16), Fin.ofNat 16 b.toNat]

/-- A path with its value. -/
structure Leaf where
  /-- The nibbles from here to the value. -/
  path : List Nibble
  /-- The value. -/
  value : Bytes

/-! ### Nodes -/

/-- Nibbles packed in pairs. -/
def pack : List Nibble → Bytes
  | high :: low :: rest => UInt8.ofNat (high.val * 16 + low.val) :: pack rest
  | [high] => [UInt8.ofNat (high.val * 16)]
  | [] => []

/-- The compact form of a path: a flag nibble tells whether the node is a leaf and whether the
number of nibbles is odd. -/
def compact (isLeaf : Bool) (path : List Nibble) : Bytes :=
  let flag : Nibble := if isLeaf then 2 else 0
  if path.length % 2 = 1 then pack ((flag + 1) :: path) else pack (flag :: 0 :: path)

/-- How a parent refers to an encoded node. -/
def reference (encoded : Bytes) : Bytes :=
  if encoded.length < 32 then encoded else Rlp.bytes (keccak256 encoded).toList

/-- A leaf node. -/
def leafNode (path : List Nibble) (value : Bytes) : Bytes :=
  Rlp.list (Rlp.bytes (compact true path) ++ Rlp.bytes value)

/-- A node that only lengthens the path to its child. -/
def extensionNode (path : List Nibble) (child : Bytes) : Bytes :=
  Rlp.list (Rlp.bytes (compact false path) ++ reference child)

/-- A node with a slot for each nibble and none for a value of its own. -/
def branchNode (slots : List Bytes) : Bytes := Rlp.list (slots.flatten ++ Rlp.bytes [])

/-! ### The trie over leaves -/

/-- The common beginning of two paths. -/
def common : List Nibble → List Nibble → List Nibble
  | a :: as, b :: bs => if a = b then a :: common as bs else []
  | _, _ => []

/-- The common beginning of all paths. -/
def shared : List Leaf → List Nibble
  | [] => []
  | leaf :: leaves => leaves.foldl (fun path l => common path l.path) leaf.path

/-- The leaves whose path starts with a nibble, without it. -/
def below (n : Nibble) (leaves : List Leaf) : List Leaf :=
  leaves.filterMap fun leaf =>
    match leaf.path with
    | m :: path => if m = n then some ⟨path, leaf.value⟩ else none
    | [] => none

/-- The encoded node over some leaves, for paths of at most `depth` nibbles. -/
def node : (depth : Nat) → List Leaf → Bytes
  | _, [] => Rlp.bytes []
  | _, [leaf] => leafNode leaf.path leaf.value
  | 0, _ => Rlp.bytes []
  | depth + 1, leaves =>
    let path := shared leaves
    let under := leaves.map fun leaf => (⟨leaf.path.drop path.length, leaf.value⟩ : Leaf)
    let slots := (List.finRange 16).map fun n =>
      match below n under with
      | [] => Rlp.bytes []
      | kept => reference (node depth kept)
    if path.isEmpty then branchNode slots else extensionNode path (branchNode slots)

/-- The root hash over some leaves. -/
def root (leaves : List Leaf) : Hash :=
  let depth := leaves.foldl (fun n leaf => max n leaf.path.length) 0
  keccak256 (node (depth + 1) leaves)

end ExecutionNode.Trie
