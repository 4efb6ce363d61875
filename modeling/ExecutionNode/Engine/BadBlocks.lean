import ExecutionNode.Payload.Status

/-!
# Bad blocks

The engine remembers the blocks that failed, with the latest valid ancestor as far as it was
known then.  Nothing is ever removed, and the first record of a hash stays.  A block that is
remembered is answered from the record alone.
-/

namespace ExecutionNode.Engine

/-- A block that failed. -/
structure BadBlock where
  /-- The block. -/
  id : BlockId
  /-- Its latest valid ancestor, if it was known. -/
  latestValidHash : Option Hash
deriving DecidableEq

/-- The blocks that failed, in the order of their recording. -/
structure BadBlocks where
  /-- The records. -/
  entries : List BadBlock
  /-- No hash has two of them. -/
  nodup : (entries.map (·.id.hash)).Nodup
deriving DecidableEq

namespace BadBlocks

/-- No block failed yet. -/
def empty : BadBlocks := ⟨[], List.nodup_nil⟩

/-- The record of a hash. -/
def find? (r : BadBlocks) (hash : Hash) : Option BadBlock := r.entries.find? (·.id.hash = hash)

/-- Whether a hash is recorded. -/
def contains (r : BadBlocks) (hash : Hash) : Bool := (r.find? hash).isSome

/-- The latest valid ancestor that is recorded for a hash. -/
def latestValidHash (r : BadBlocks) (hash : Hash) : Option Hash :=
  (r.find? hash).bind (·.latestValidHash)

theorem contains_iff {r : BadBlocks} {hash : Hash} :
    r.contains hash = true ↔ ∃ b ∈ r.entries, b.id.hash = hash := by
  simp [contains, find?, List.find?_isSome]

theorem nodup_append {r : BadBlocks} {b : BadBlock} (h : r.contains b.id.hash ≠ true) :
    ((r.entries ++ [b]).map (·.id.hash)).Nodup := by
  rw [List.map_append, List.nodup_append]
  refine ⟨r.nodup, by simp, fun x hx y hy => ?_⟩
  obtain ⟨c, hc, rfl⟩ := List.mem_map.mp hx
  obtain rfl : y = b.id.hash := by simpa using hy
  exact fun heq => h (contains_iff.mpr ⟨c, hc, heq⟩)

/-- Records a block unless its hash is recorded already. -/
def record (r : BadBlocks) (b : BadBlock) : BadBlocks :=
  if h : r.contains b.id.hash then r else ⟨r.entries ++ [b], nodup_append h⟩

/-- The error text for a recorded block without an ancestor. -/
def alreadyBad : String := "Block already present in bad block manager."

/-- The answer to a recorded hash. -/
def status? (r : BadBlocks) (hash : Hash) : Option PayloadStatus :=
  (r.find? hash).map fun b =>
    match b.latestValidHash with
    | some ancestor => .invalid (some ancestor) none
    | none => .invalid (some (.zero 32)) (some alreadyBad)

/-! ### What recording changes -/

theorem status?_eq_none_iff {r : BadBlocks} {hash : Hash} :
    r.status? hash = none ↔ r.contains hash = false := by
  simp [status?, contains]

theorem entries_record_of_not_contains {r : BadBlocks} {b : BadBlock}
    (h : r.contains b.id.hash = false) : (r.record b).entries = r.entries ++ [b] := by
  simp [record, h]

end BadBlocks

end ExecutionNode.Engine
