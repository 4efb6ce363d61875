import ExecutionNode.Bytes

/-!
# The hash of the chain

Keccak with 256 bits of output, padded with a one bit, zeros and a one bit.  The
state is 25 lanes of 64 bits; lane `x + 5 y` stands in column `x` of row `y`.

Nothing here is proved about collisions: a statement that needs their absence assumes it.
-/

namespace ExecutionNode.Keccak

/-- The sponge state. -/
abbrev State := Vector UInt64 25

/-- The constant that each round adds to lane zero. -/
def roundConstants : List UInt64 :=
  [0x0000000000000001, 0x0000000000008082, 0x800000000000808a, 0x8000000080008000,
   0x000000000000808b, 0x0000000080000001, 0x8000000080008081, 0x8000000000008009,
   0x000000000000008a, 0x0000000000000088, 0x0000000080008009, 0x000000008000000a,
   0x000000008000808b, 0x800000000000008b, 0x8000000000008089, 0x8000000000008003,
   0x8000000000008002, 0x8000000000000080, 0x000000000000800a, 0x800000008000000a,
   0x8000000080008081, 0x8000000000008080, 0x0000000080000001, 0x8000000080008008]

/-- How far each lane is rotated. -/
def rotations : Vector UInt64 25 :=
  #v[0, 1, 62, 28, 27, 36, 44, 6, 55, 20, 3, 10, 43, 25, 39, 41, 45, 15, 21, 8, 18, 2, 61, 56, 14]

/-- Rotates a lane to the left. -/
def rotateLeft (lane amount : UInt64) : UInt64 :=
  if amount = 0 then lane else (lane <<< amount) ||| (lane >>> (64 - amount))

/-- One round: mix the columns, rotate and move the lanes, combine the rows. -/
def round (s : State) (constant : UInt64) : State :=
  let column (x : Nat) : UInt64 :=
    s.toArray.getD x 0 ^^^ s.toArray.getD (x + 5) 0 ^^^ s.toArray.getD (x + 10) 0
      ^^^ s.toArray.getD (x + 15) 0 ^^^ s.toArray.getD (x + 20) 0
  let parity : Vector UInt64 5 := Vector.ofFn fun x => column x.val
  let mix (x : Nat) : UInt64 :=
    parity.toArray.getD ((x + 4) % 5) 0 ^^^ rotateLeft (parity.toArray.getD ((x + 1) % 5) 0) 1
  let mixed : Vector UInt64 5 := Vector.ofFn fun x => mix x.val
  let moved : State := Vector.ofFn fun i =>
    -- lane (x, y) of the result comes from lane (x + 3 y, x)
    let x := i.val % 5
    let y := i.val / 5
    let j := (x + 3 * y) % 5 + 5 * x
    rotateLeft (s.toArray.getD j 0 ^^^ mixed.toArray.getD (j % 5) 0) (rotations.toArray.getD j 0)
  let lane (x y : Nat) : UInt64 := moved.toArray.getD (x % 5 + 5 * y) 0
  let combined : State := Vector.ofFn fun i =>
    let x := i.val % 5
    let y := i.val / 5
    lane x y ^^^ ((~~~ lane (x + 1) y) &&& lane (x + 2) y)
  combined.set 0 (combined[0] ^^^ constant)

/-- All rounds. -/
def permute (s : State) : State := roundConstants.foldl round s

/-- The octets of one block of input. -/
def rate : Nat := 136

/-- The lane of up to eight octets, least significant first. -/
def laneOf (bytes : Bytes) : UInt64 :=
  bytes.foldr (fun b lane => (lane <<< 8) ||| b.toUInt64) 0

/-- The eight octets of a lane, least significant first. -/
def laneBytes (lane : UInt64) : Bytes :=
  (List.range 8).map fun i => (lane >>> (8 * UInt64.ofNat i)).toUInt8

@[simp] theorem length_laneBytes (lane : UInt64) : (laneBytes lane).length = 8 := by
  simp [laneBytes]

/-- Adds a block to the state. -/
def addBlock (s : State) (block : Bytes) : State :=
  let lanes : Array UInt64 :=
    (Array.range (rate / 8)).map fun i => laneOf ((block.drop (8 * i)).take 8)
  s.mapIdx fun i lane => lane ^^^ lanes.getD i 0

/-- The padding behind a message whose last block holds `left` octets, `left < rate`. -/
def padding (left : Nat) : Bytes :=
  if left + 1 = rate then [0x81] else 0x01 :: List.replicate (rate - left - 2) 0 ++ [0x80]

/-- Absorbs a padded message block by block. -/
def absorb (s : State) (message : Bytes) : State :=
  match message with
  | [] => s
  | b :: rest => absorb (permute (addBlock s ((b :: rest).take rate))) ((b :: rest).drop rate)
termination_by message.length
decreasing_by
  have : 0 < rate := by decide
  simp only [List.length_drop, List.length_cons]
  omega

/-- The hash of a byte string. -/
def hash (message : Bytes) : Hash :=
  let s := absorb (Vector.replicate 25 0) (message ++ padding (message.length % rate))
  ⟨laneBytes s[0] ++ laneBytes s[1] ++ laneBytes s[2] ++ laneBytes s[3], by simp⟩

end ExecutionNode.Keccak

/-- The hash of a byte string. -/
def ExecutionNode.keccak256 (message : Bytes) : Hash := Keccak.hash message
