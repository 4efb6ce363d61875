import ExecutionNode.Payload
import ExecutionNode.Proofs.Trie.Order

/-!
# Payloads and blocks

A payload and a block are two shapes of one thing.  The payload leaves out what is fixed or can be
computed, and carries each transaction as its bytes.

* `Block.WellFormed`: what a block has to be so that a payload can carry it; `Block.Committed` is
  the part of it that the header says.
* `Payload.toBlock_eq_ok_iff`: a payload is accepted exactly if it passes the four checks.
* `Payload.toBlock_iff_ofBlock`: the accepted blocks are the well formed ones, and both directions
  are inverse to each other.
-/

namespace ExecutionNode

/-! ### Transactions and their bytes -/

namespace Transaction.Envelope

/-- A transaction keeps the bytes that it was read from. -/
theorem raw_of_decode {bytes : Bytes} {tx : Envelope} (h : decode bytes = .ok tx) :
    tx.raw = bytes := by
  unfold decode at h
  split at h
  · cases h
  · split at h
    · cases h
    · split at h
      · split at h
        · cases h
        · cases h; rfl
      · cases h

/-- Bytes are read as these transactions if they are theirs, and each transaction is what its own
bytes are read as. -/
theorem decodeAll_eq_ok_iff {raws : List Bytes} {txs : List Envelope} :
    decodeAll raws = .ok txs ↔ txs.map raw = raws ∧ ∀ tx ∈ txs, decode tx.raw = .ok tx := by
  induction raws generalizing txs with
  | nil => cases txs <;> simp [decodeAll]
  | cons bytes raws ih =>
    cases hfirst : decode bytes with
    | error cause =>
      refine ⟨fun h => by simp [decodeAll, hfirst] at h, ?_⟩
      rintro ⟨hraws, hread⟩
      obtain ⟨tx, rest, rfl, rfl, -⟩ := List.map_eq_cons_iff.mp hraws
      rw [hread tx List.mem_cons_self] at hfirst
      cases hfirst
    | ok first =>
      have hraw := raw_of_decode hfirst
      constructor
      · intro h
        cases hrest : decodeAll raws with
        | error cause => simp [decodeAll, hfirst, hrest] at h
        | ok rest =>
          simp only [decodeAll, hfirst, hrest, Except.ok.injEq] at h
          obtain ⟨hraws, hread⟩ := ih.mp hrest
          rw [← h, List.map_cons, List.forall_mem_cons, hraw, hraws]
          exact ⟨rfl, hfirst, hread⟩
      · rintro ⟨hraws, hread⟩
        obtain ⟨tx, rest, rfl, rfl, hrest⟩ := List.map_eq_cons_iff.mp hraws
        rw [List.forall_mem_cons] at hread
        simp only [decodeAll, hread.1, ih.mpr ⟨hrest, hread.2⟩]

end Transaction.Envelope

/-! ### Acceptance -/

/-- What a block has to be so that a payload can carry it. -/
structure Block.WellFormed (maxExtraData : Nat) (b : Block) : Prop where
  /-- The declared hash is the hash of the header. -/
  hash : b.hash = b.header.header.hash
  /-- There are no ommers. -/
  ommers : b.header.header.ommersHash = emptyOmmersHash
  /-- Nothing was mined, so there is no difficulty. -/
  difficulty : b.header.header.difficulty = 0
  /-- Nothing was mined, so there is no nonce. -/
  nonce : b.header.header.nonce = 0
  /-- The base fee is there. -/
  fee : b.header.header.baseFeePerGas.isSome
  /-- The header commits to the transactions. -/
  transactions : b.header.header.transactionsRoot = Transaction.root b.transactions
  /-- The header commits to the withdrawals, if the block can have any. -/
  withdrawals : b.header.header.withdrawalsRoot = b.withdrawals.map Withdrawal.root
  /-- The free bytes are not too long. -/
  extraData : b.header.header.extraData.length ≤ maxExtraData
  /-- Each transaction is what its own bytes are read as. -/
  decoded : ∀ tx ∈ b.transactions, Transaction.Envelope.decode tx.raw = .ok tx

/-- The header of a block is one of this chain and commits to its body. -/
structure Block.Committed (b : Block) : Prop where
  /-- The declared hash is the hash of the header. -/
  hash : b.hash = b.header.header.hash
  /-- There are no ommers. -/
  ommers : b.header.header.ommersHash = emptyOmmersHash
  /-- Nothing was mined, so there is no difficulty. -/
  difficulty : b.header.header.difficulty = 0
  /-- Nothing was mined, so there is no nonce. -/
  nonce : b.header.header.nonce = 0
  /-- The base fee is there. -/
  fee : b.header.header.baseFeePerGas.isSome
  /-- The header commits to the transactions. -/
  transactions : b.header.header.transactionsRoot = Transaction.root b.transactions
  /-- The header commits to the withdrawals, if the block can have any. -/
  withdrawals : b.header.header.withdrawalsRoot = b.withdrawals.map Withdrawal.root

/-- A well formed block is committed to by its header. -/
theorem Block.WellFormed.committed {maxExtraData : Nat} {b : Block}
    (h : b.WellFormed maxExtraData) : b.Committed where
  hash := h.hash
  ommers := h.ommers
  difficulty := h.difficulty
  nonce := h.nonce
  fee := h.fee
  transactions := h.transactions
  withdrawals := h.withdrawals

namespace Payload

variable {p : Payload} {b : Block} {maxExtraData : Nat}

/-- A payload passes every check, and its transactions are these. -/
structure Passes (maxExtraData : Nat) (p : Payload) (transactions : List Transaction.Envelope) :
    Prop where
  /-- The base fee fits a header. -/
  fee : p.baseFeePerGas.toNat < UInt64.size
  /-- The declared hash is the hash of the header. -/
  hash : p.header.hash = p.blockHash
  /-- The transactions can be read. -/
  decoded : Transaction.Envelope.decodeAll p.transactions = .ok transactions
  /-- The free bytes are given. -/
  given : p.extraData = some p.header.extraData
  /-- The free bytes are not too long. -/
  extraData : p.header.extraData.length ≤ maxExtraData

/-- **A payload is accepted exactly if it passes the four checks.** -/
theorem toBlock_eq_ok_iff :
    p.toBlock maxExtraData = .ok b ↔
      ∃ transactions, p.Passes maxExtraData transactions ∧
        b = ⟨⟨p.header, p.blockHash⟩, transactions, p.withdrawals⟩ := by
  constructor
  · intro h
    unfold toBlock at h
    split at h
    · cases h
    next hfee =>
      dsimp only at h
      split at h
      · cases h
      next hhash =>
        split at h
        · cases h
        next transactions hdecoded =>
          split at h
          · cases h
          next extra hgiven =>
            have hextra : p.header.extraData = extra := by rw [header, hgiven]; rfl
            split at h
            · cases h
            next hlength =>
              cases h
              exact ⟨transactions, ⟨Nat.lt_of_not_le hfee, Decidable.not_not.mp hhash, hdecoded,
                by rw [hgiven, hextra], by rw [hextra]; exact Nat.le_of_not_lt hlength⟩, rfl⟩
  · rintro ⟨transactions, h, rfl⟩
    have hfee : ¬ p.baseFeePerGas.toNat ≥ UInt64.size := Nat.not_le_of_lt h.fee
    have hlength : ¬ p.header.extraData.length > maxExtraData := Nat.not_lt_of_le h.extraData
    simp only [toBlock, hfee, h.hash, h.decoded, h.given, hlength, ↓reduceIte, ne_eq,
      not_true_eq_false]

/-- A payload that passes becomes a well formed block. -/
theorem Passes.wellFormed {transactions : List Transaction.Envelope}
    (h : p.Passes maxExtraData transactions) :
    Block.WellFormed maxExtraData ⟨⟨p.header, p.blockHash⟩, transactions, p.withdrawals⟩ where
  hash := h.hash.symm
  ommers := rfl
  difficulty := rfl
  nonce := rfl
  fee := rfl
  transactions := by
    have hraw := (Transaction.Envelope.decodeAll_eq_ok_iff.mp h.decoded).1
    show Trie.orderedRoot (fun raw => raw) p.transactions = _
    rw [← hraw, Trie.orderedRoot_map]
    rfl
  withdrawals := rfl
  extraData := h.extraData
  decoded := (Transaction.Envelope.decodeAll_eq_ok_iff.mp h.decoded).2

/-- A base fee that fits a header survives the way into it and back. -/
theorem toNat_headerFee (h : p.baseFeePerGas.toNat < UInt64.size) :
    p.headerFee.toNat = p.baseFeePerGas.toNat := by
  have hmin : min p.baseFeePerGas.toNat (UInt64.size - 1) = p.baseFeePerGas.toNat :=
    Nat.min_eq_left (Nat.le_pred_of_lt h)
  rw [headerFee, hmin, UInt64.toNat_ofNat_of_lt' h]

/-- A payload that passes is shown again by its block. -/
theorem Passes.ofBlock_eq {transactions : List Transaction.Envelope}
    (h : p.Passes maxExtraData transactions) :
    ofBlock ⟨⟨p.header, p.blockHash⟩, transactions, p.withdrawals⟩ = p := by
  have hraw := (Transaction.Envelope.decodeAll_eq_ok_iff.mp h.decoded).1
  have hfee : BitVec.ofNat 256 p.headerFee.toNat = p.baseFeePerGas := by
    rw [toNat_headerFee h.fee, BitVec.ofNat_toNat, BitVec.setWidth_eq]
  calc
    ofBlock ⟨⟨p.header, p.blockHash⟩, transactions, p.withdrawals⟩
      = { p with
          extraData := some p.header.extraData
          baseFeePerGas := BitVec.ofNat 256 p.headerFee.toNat
          transactions := transactions.map (·.raw) } := rfl
    _ = p := by rw [hfee, hraw, ← h.given]

/-- The payload of a block has a base fee that fits a header. -/
theorem toNat_fee_ofBlock (b : Block) :
    (ofBlock b).baseFeePerGas.toNat = (b.header.header.baseFeePerGas.getD 0).toNat := by
  have hlt := (b.header.header.baseFeePerGas.getD 0).toNat_lt
  rw [ofBlock, BitVec.toNat_ofNat]
  exact Nat.mod_eq_of_lt (Nat.lt_trans hlt (by decide))

/-- A block that its header commits to has the header that its payload commits to. -/
theorem header_ofBlock_of_committed (h : b.Committed) :
    (ofBlock b).header = b.header.header := by
  have htransactions : Trie.orderedRoot (fun raw => raw) (ofBlock b).transactions =
      b.header.header.transactionsRoot := by
    rw [h.transactions, ofBlock, Trie.orderedRoot_map]
    rfl
  have hfee : some (ofBlock b).headerFee = b.header.header.baseFeePerGas := by
    obtain ⟨fee, hfee⟩ := Option.isSome_iff_exists.mp h.fee
    have hnum : (ofBlock b).baseFeePerGas.toNat = fee.toNat := by
      rw [toNat_fee_ofBlock, hfee, Option.getD_some]
    rw [hfee, Option.some.injEq, ← UInt64.toNat_inj, toNat_headerFee, hnum]
    exact hnum ▸ fee.toNat_lt
  calc
    (ofBlock b).header
      = { b.header.header with
          ommersHash := emptyOmmersHash
          transactionsRoot := Trie.orderedRoot (fun raw => raw) (ofBlock b).transactions
          withdrawalsRoot := b.withdrawals.map Withdrawal.root
          difficulty := 0
          nonce := 0
          baseFeePerGas := some (ofBlock b).headerFee } := rfl
    _ = b.header.header := by
      rw [htransactions, hfee, ← h.ommers, ← h.withdrawals, ← h.difficulty, ← h.nonce]

/-- A well formed block has the header that its payload commits to. -/
theorem header_ofBlock (h : b.WellFormed maxExtraData) : (ofBlock b).header = b.header.header :=
  header_ofBlock_of_committed h.committed

/-- The payload of a well formed block passes. -/
theorem passes_ofBlock (h : b.WellFormed maxExtraData) :
    (ofBlock b).Passes maxExtraData b.transactions where
  fee := by
    rw [toNat_fee_ofBlock]
    exact UInt64.toNat_lt _
  hash := by
    rw [header_ofBlock h]
    exact h.hash.symm
  decoded := Transaction.Envelope.decodeAll_eq_ok_iff.mpr ⟨rfl, h.decoded⟩
  given := by
    rw [header_ofBlock h]
    rfl
  extraData := by
    rw [header_ofBlock h]
    exact h.extraData

/-- **Payloads and well formed blocks are the same thing in two shapes**: a payload is accepted as a
block exactly if the block is well formed and shows as the payload. In particular a well formed
block is what its own payload is accepted as. -/
theorem toBlock_iff_ofBlock (p : Payload) (b : Block) (maxExtraData : Nat) :
    p.toBlock maxExtraData = .ok b ↔ b.WellFormed maxExtraData ∧ ofBlock b = p := by
  constructor
  · intro h
    obtain ⟨transactions, hpasses, rfl⟩ := toBlock_eq_ok_iff.mp h
    exact ⟨hpasses.wellFormed, hpasses.ofBlock_eq⟩
  · rintro ⟨hformed, rfl⟩
    refine toBlock_eq_ok_iff.mpr ⟨b.transactions, passes_ofBlock hformed, ?_⟩
    rw [header_ofBlock hformed]
    rfl

end Payload

end ExecutionNode
