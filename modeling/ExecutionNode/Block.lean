import ExecutionNode.Header
import ExecutionNode.Transaction.Envelope
import ExecutionNode.Withdrawal

/-!
# Blocks

A block is a sealed header with a body: transactions as they arrived and, from the fork that
introduced them, withdrawals.
-/

namespace ExecutionNode

/-- The root over withdrawals. -/
def Withdrawal.root (withdrawals : List Withdrawal) : Hash :=
  Trie.orderedRoot Withdrawal.encode withdrawals

/-- A block with its declared hash. -/
structure Block where
  /-- The header. -/
  header : SealedHeader
  /-- The transactions. -/
  transactions : List Transaction.Envelope
  /-- The withdrawals, if the block can have any. -/
  withdrawals : Option (List Withdrawal)
deriving DecidableEq

namespace Block

/-- The declared hash. -/
def hash (b : Block) : Hash := b.header.hash

/-- The number and the declared hash. -/
def id (b : Block) : BlockId := b.header.id

instance : Inhabited Block := ⟨⟨default, [], none⟩⟩

end Block

end ExecutionNode
