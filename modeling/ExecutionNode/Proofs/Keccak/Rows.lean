import ExecutionNode.Keccak
import Mathlib.Tactic.IntervalCases

/-!
# The hash, row by row

The state of the hash is a vector in which each lane is found by its index.  As five rows of five
lanes each lane is a field instead, and a message is absorbed by counting its blocks.  In this form
the hash of given octets can be computed where a proof depends on it.

* `Rows.addBlock`, `Rows.permute`: a block and the rounds on rows, with the same outcome
  (`addBlock_toState`, `permute_toState`).
* `absorb_eq`: a message of whole blocks is absorbed block by block.
* `absorb_padded`: so is every message with its padding, which is all that the hash does.
-/

namespace ExecutionNode

namespace Keccak

/-- Five things beside each other. -/
structure Five (α : Type) where
  /-- The first thing. -/
  a : α
  /-- The second thing. -/
  b : α
  /-- The third thing. -/
  c : α
  /-- The fourth thing. -/
  d : α
  /-- The fifth thing. -/
  e : α

/-- The lanes of a row. -/
abbrev Row := Five UInt64

namespace Row

/-- Two rows added lane by lane. -/
def add (r s : Row) : Row := ⟨r.a ^^^ s.a, r.b ^^^ s.b, r.c ^^^ s.c, r.d ^^^ s.d, r.e ^^^ s.e⟩

/-- What each column takes from its neighbours. -/
def mix (r : Row) : Row :=
  ⟨r.e ^^^ rotateLeft r.b 1, r.a ^^^ rotateLeft r.c 1, r.b ^^^ rotateLeft r.d 1,
    r.c ^^^ rotateLeft r.e 1, r.d ^^^ rotateLeft r.a 1⟩

/-- Each lane combined with the two behind it. -/
def combine (r : Row) : Row :=
  ⟨r.a ^^^ (~~~ r.b &&& r.c), r.b ^^^ (~~~ r.c &&& r.d), r.c ^^^ (~~~ r.d &&& r.e),
    r.d ^^^ (~~~ r.e &&& r.a), r.e ^^^ (~~~ r.a &&& r.b)⟩

end Row

/-- The state as five rows. -/
abbrev Rows := Five Row

namespace Rows

/-- The rows behind each other. -/
def toState (s : Rows) : State :=
  #v[s.a.a, s.a.b, s.a.c, s.a.d, s.a.e, s.b.a, s.b.b, s.b.c, s.b.d, s.b.e,
    s.c.a, s.c.b, s.c.c, s.c.d, s.c.e, s.d.a, s.d.b, s.d.c, s.d.d, s.d.e,
    s.e.a, s.e.b, s.e.c, s.e.d, s.e.e]

/-- All lanes zero. -/
def zero : Rows :=
  let row : Row := ⟨0, 0, 0, 0, 0⟩
  ⟨row, row, row, row, row⟩

/-- A block added to the rows: it has three whole rows and two lanes of the fourth. -/
def addBlock (s : Rows) (block : Bytes) : Rows :=
  let lane (i : Nat) : UInt64 := laneOf ((block.drop (8 * i)).take 8)
  ⟨s.a.add ⟨lane 0, lane 1, lane 2, lane 3, lane 4⟩,
    s.b.add ⟨lane 5, lane 6, lane 7, lane 8, lane 9⟩,
    s.c.add ⟨lane 10, lane 11, lane 12, lane 13, lane 14⟩,
    { s.d with a := s.d.a ^^^ lane 15, b := s.d.b ^^^ lane 16 }, s.e⟩

/-- Each lane rotated and put in its new place. -/
def move (s : Rows) : Rows :=
  ⟨⟨s.a.a, rotateLeft s.b.b 44, rotateLeft s.c.c 43, rotateLeft s.d.d 21, rotateLeft s.e.e 14⟩,
    ⟨rotateLeft s.a.d 28, rotateLeft s.b.e 20, rotateLeft s.c.a 3, rotateLeft s.d.b 45,
      rotateLeft s.e.c 61⟩,
    ⟨rotateLeft s.a.b 1, rotateLeft s.b.c 6, rotateLeft s.c.d 25, rotateLeft s.d.e 8,
      rotateLeft s.e.a 18⟩,
    ⟨rotateLeft s.a.e 27, rotateLeft s.b.a 36, rotateLeft s.c.b 10, rotateLeft s.d.c 15,
      rotateLeft s.e.d 56⟩,
    ⟨rotateLeft s.a.c 62, rotateLeft s.b.d 55, rotateLeft s.c.e 39, rotateLeft s.d.a 41,
      rotateLeft s.e.b 2⟩⟩

/-- One round. -/
def round (s : Rows) (constant : UInt64) : Rows :=
  let mixed := ((((s.a.add s.b).add s.c).add s.d).add s.e).mix
  let moved : Rows :=
    move ⟨s.a.add mixed, s.b.add mixed, s.c.add mixed, s.d.add mixed, s.e.add mixed⟩
  let first := moved.a.combine
  ⟨{ first with a := first.a ^^^ constant }, moved.b.combine, moved.c.combine, moved.d.combine,
    moved.e.combine⟩

/-- All rounds. -/
def permute (s : Rows) : Rows := roundConstants.foldl round s

end Rows

/-- What is computed lane by lane is looked up by index. -/
theorem getD_ofFn {n : Nat} (f : Fin n → UInt64) (i : Nat) (hi : i < n) :
    (Vector.ofFn f).toArray.getD i 0 = f ⟨i, hi⟩ := by
  simp [Array.getD, hi]

/-- A block is added to the rows as it is to the state. -/
theorem addBlock_toState (s : Rows) (block : Bytes) :
    Keccak.addBlock s.toState block = (s.addBlock block).toState := by
  refine Vector.ext fun i hi => ?_
  simp only [Keccak.addBlock, Vector.getElem_mapIdx]
  interval_cases i
  all_goals
    simp [rate, Array.getD]
    rfl

/-- A round on rows is a round on the state. -/
theorem round_toState (s : Rows) (constant : UInt64) :
    Keccak.round s.toState constant = (s.round constant).toState := by
  refine Vector.ext fun i hi => ?_
  simp only [Keccak.round, Vector.getElem_set, Vector.getElem_ofFn]
  -- which lanes a lane comes from is computed from its index
  interval_cases i
  all_goals
    simp only [Nat.reduceDiv, Nat.reduceMod, Nat.reduceMul, Nat.reduceAdd, Nat.reduceLT, getD_ofFn]
    rfl

/-- All rounds on rows are all rounds on the state. -/
theorem permute_toState (s : Rows) : Keccak.permute s.toState = s.permute.toState := by
  unfold Keccak.permute Rows.permute
  generalize roundConstants = constants
  induction constants generalizing s with
  | nil => rfl
  | cons constant constants ih => rw [List.foldl_cons, round_toState, ih, List.foldl_cons]

/-- Absorbs the given number of blocks. -/
def absorbBlocks : Nat → Rows → Bytes → Rows
  | 0, s, _ => s
  | n + 1, s, message =>
    absorbBlocks n (s.addBlock (message.take rate)).permute (message.drop rate)

/-- A message of whole blocks is absorbed block by block. -/
theorem absorb_eq {n : Nat} {s : Rows} {message : Bytes} (h : message.length = n * rate) :
    absorb s.toState message = (absorbBlocks n s message).toState := by
  induction n generalizing s message with
  | zero =>
    rw [Nat.zero_mul] at h
    rw [List.eq_nil_of_length_eq_zero h, absorb, absorbBlocks]
  | succ n ih =>
    have hrest : (message.drop rate).length = n * rate := by
      rw [List.length_drop, h, Nat.succ_mul, Nat.add_sub_cancel]
    cases message with
    | nil => simp [rate] at h
    | cons b rest =>
      rw [absorb, addBlock_toState, permute_toState, ih hrest, absorbBlocks]

/-- The padding fills the last block. -/
theorem length_padding {left : Nat} (h : left < rate) : left + (padding left).length = rate := by
  unfold padding
  split
  · assumption
  · simp only [List.length_append, List.length_cons, List.length_replicate, List.length_nil]
    omega

/-- A padded message has whole blocks. -/
theorem length_padded (message : Bytes) :
    (message ++ padding (message.length % rate)).length = (message.length / rate + 1) * rate := by
  have hpadding := length_padding (Nat.mod_lt message.length (by decide : 0 < rate))
  have hlength := Nat.div_add_mod' message.length rate
  rw [List.length_append, Nat.succ_mul]
  omega

/-- **A message is absorbed with its padding block by block**, each with the rounds on rows. -/
theorem absorb_padded (message : Bytes) :
    absorb (Vector.replicate 25 0) (message ++ padding (message.length % rate)) =
      (absorbBlocks (message.length / rate + 1) .zero
        (message ++ padding (message.length % rate))).toState :=
  absorb_eq (s := .zero) (length_padded message)

example : (keccak256 []).toList.take 4 = [0xc5, 0xd2, 0x46, 0x01] := by
  simp only [keccak256, hash, absorb_padded]
  decide +kernel

end Keccak

end ExecutionNode
