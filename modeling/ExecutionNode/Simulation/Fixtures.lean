import ExecutionNode.Block

/-!
# Sample chains

Headers, transactions and blocks that are well formed, with contents that do not matter.  Each is
made from a number: the contents are digests of it, the links between them are right.
-/

namespace ExecutionNode.Simulation

/-! ### Contents that do not matter -/

/-- A hash of no meaning. -/
def sampleHash (n : Nat) : Hash := keccak256 (toBytesBE 32 n)

/-- An address of no meaning. -/
def sampleAddress (n : Nat) : Address := ⟨toBytesBE 20 (natOfBE (sampleHash n).toList), by simp⟩

/-- A word of no meaning. -/
def sampleWord (n : Nat) : UInt64 := UInt64.ofNat (natOfBE (sampleHash n).toList)

/-! ### Headers -/

/-- The time of a block. Blocks are twelve seconds apart. -/
def sampleTime (number : UInt64) : UInt64 := 1700000000 + number * 12

/-- The header of a number. -/
def sampleHeader (number : UInt64) (parent : Hash) : Header :=
  { Header.blank with
    parentHash := parent
    beneficiary := sampleAddress (3 * number.toNat)
    stateRoot := sampleHash (3 * number.toNat + 1)
    number
    gasLimit := 30000000
    timestamp := sampleTime number
    mixHash := sampleHash (3 * number.toNat + 2)
    baseFeePerGas := some 7 }

/-- What is made of successive numbers, each from the hash of the one before. -/
def chain {α : Type} (make : UInt64 → Hash → α) (hash : α → Hash) (start : UInt64) (head : Hash) :
    (count : Nat) → List α
  | 0 => []
  | count + 1 =>
    let first := make start head
    first :: chain make hash (start + 1) (hash first) count

/-- Headers of successive numbers, each on top of the one before. -/
def sampleHeaders : (start : UInt64) → (head : Hash) → (count : Nat) → List SealedHeader :=
  chain (fun number parent => (sampleHeader number parent).sealed) SealedHeader.hash

/-- Whether each header stands on top of the one before. -/
def areLinked : (head : Hash) → List SealedHeader → Bool
  | _, [] => true
  | head, h :: rest => h.header.parentHash == head && areLinked h.hash rest

/-! ### Blocks -/

/-- A transfer with a signature of no meaning. -/
def sampleTransfer (n : Nat) : Transaction.Signed :=
  .legacy
    { nonce := sampleWord (4 * n)
      gasLimit := 21000
      value := BitVec.ofNat 256 (sampleWord (4 * n + 1)).toNat
      data := []
      gasPrice := 1000000000
      recipient := some (sampleAddress (4 * n + 1))
      chainId := none
      signature :=
        { yParity := n % 2 = 1
          r := BitVec.ofNat 256 (sampleWord (4 * n + 2)).toNat
          s := BitVec.ofNat 256 (sampleWord (4 * n + 3)).toNat } }

/-- So many transfers as they arrive; those that could not be read would be left out. -/
def sampleTransfers (count : Nat) : List Transaction.Envelope :=
  (List.range count).filterMap fun n =>
    (Transaction.Envelope.decode (sampleTransfer n).encode).toOption

/-- The block of a number with so many transfers. -/
def sampleBlock (number : UInt64) (parent : Hash) (count : Nat) : Block :=
  let transactions := sampleTransfers count
  let header :=
    { sampleHeader number parent with transactionsRoot := Transaction.root transactions }
  { header := header.sealed, transactions, withdrawals := none }

/-- Blocks of successive numbers with one transfer each, each on top of the one before. -/
def sampleBlocks : (start : UInt64) → (head : Hash) → (count : Nat) → List Block :=
  chain (fun number parent => sampleBlock number parent 1) Block.hash

end ExecutionNode.Simulation
