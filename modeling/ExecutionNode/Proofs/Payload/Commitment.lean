import ExecutionNode.Proofs.Header.Encoding
import ExecutionNode.Proofs.Payload.RoundTrip

/-!
# What a block hash commits to

The declared hash of an accepted payload is the hash of its header, and the header holds the roots
over the transactions and the withdrawals.  So if neither the hash nor the tries confuse what two
payloads give them, a payload is determined by its block hash.

* `Addressable`: the lists of a payload can be held in memory.
* `Passes.ext`: an accepted payload is determined by its header, its declared hash and its lists.
* `Payload.blockHash_injective`: accepted payloads of one block hash are equal.
-/

namespace ExecutionNode.Payload

variable {p q : Payload} {m n : Nat}

/-- The lists of a payload can be held in a memory of 64 bit addresses. -/
structure Addressable (p : Payload) : Prop where
  /-- There is memory for the transactions. -/
  transactions : p.transactions.length < UInt64.size
  /-- There is memory for the withdrawals. -/
  withdrawals : (p.withdrawals.getD []).length < UInt64.size
  /-- There is memory for the free bytes. -/
  extraData : (p.extraData.getD []).length < UInt64.size

/-- The leaves of the trie over the transactions. -/
def transactionLeaves (p : Payload) : List Trie.Leaf :=
  Trie.orderedLeaves (fun raw => raw) p.transactions

/-- The leaves of the trie over the withdrawals, if the block can have any. -/
def withdrawalLeaves (p : Payload) : Option (List Trie.Leaf) :=
  p.withdrawals.map (Trie.orderedLeaves Withdrawal.encode)

/-- An accepted payload is determined by its header, its declared hash and its lists. -/
theorem Passes.ext {transactions others : List Transaction.Envelope}
    (hp : p.Passes m transactions) (hq : q.Passes n others) (hheader : p.header = q.header)
    (hhash : p.blockHash = q.blockHash) (htransactions : p.transactions = q.transactions)
    (hwithdrawals : p.withdrawals = q.withdrawals) : p = q := by
  have hothers : transactions = others := by
    have hdecoded := hp.decoded
    rw [htransactions, hq.decoded] at hdecoded
    exact (Except.ok.inj hdecoded).symm
  rw [← hp.ofBlock_eq, ← hq.ofBlock_eq, hheader, hhash, hothers, hwithdrawals]

/-- Accepted payloads of one block hash have one header. -/
theorem Passes.header_eq {transactions others : List Transaction.Envelope}
    (hp : p.Passes m transactions) (hq : q.Passes n others) (hpa : p.Addressable)
    (hqa : q.Addressable)
    (hkeccak : keccak256 p.header.encode = keccak256 q.header.encode →
      p.header.encode = q.header.encode)
    (hhash : p.blockHash = q.blockHash) : p.header = q.header := by
  have hcomputed : p.header.hash = q.header.hash := by rw [hp.hash, hq.hash, hhash]
  exact Header.encode_injective hpa.extraData hqa.extraData rfl rfl (hkeccak hcomputed)

/-- Payloads with one root over the transactions have the same transactions. -/
theorem transactions_eq (hpa : p.Addressable) (hqa : q.Addressable)
    (hleaves : Trie.Distinguished p.transactionLeaves q.transactionLeaves)
    (h : p.header = q.header) : p.transactions = q.transactions :=
  Trie.orderedRoot_injective Function.injective_id (Nat.le_of_lt hpa.transactions)
    (Nat.le_of_lt hqa.transactions) hleaves (congrArg Header.transactionsRoot h)

/-- Payloads with one root over the withdrawals, or with none, have the same withdrawals. -/
theorem withdrawals_eq (hpa : p.Addressable) (hqa : q.Addressable)
    (hleaves : ∀ leaves ∈ p.withdrawalLeaves, ∀ others ∈ q.withdrawalLeaves,
      Trie.Distinguished leaves others)
    (h : p.header = q.header) : p.withdrawals = q.withdrawals := by
  have hroot : p.withdrawals.map Withdrawal.root = q.withdrawals.map Withdrawal.root :=
    congrArg Header.withdrawalsRoot h
  have hplength := hpa.withdrawals
  have hqlength := hqa.withdrawals
  unfold withdrawalLeaves at hleaves
  generalize p.withdrawals = v, q.withdrawals = w at *
  cases v with
  | none => cases w with
    | none => rfl
    | some ws => cases hroot
  | some vs => cases w with
    | none => cases hroot
    | some ws =>
      have hsame : vs = ws :=
        Trie.orderedRoot_injective (fun _ _ => Withdrawal.encode_injective)
          (Nat.le_of_lt hplength) (Nat.le_of_lt hqlength) (hleaves _ rfl _ rfl)
          (Option.some.inj hroot)
      rw [hsame]

/-! ### A payload with a body -/

/-- A legacy transaction that creates a contract. -/
def creation : Bytes := [0xcb, 0x80, 0x01, 0x82, 0x52, 0x08, 0x80, 0x80, 0x80, 0x1b, 0x01, 0x01]

/-- The creation of a contract is read as what it is. -/
theorem decode_creation :
    Transaction.Envelope.decode creation = .ok ⟨.legacy, keccak256 creation, creation⟩ := rfl

/-- A payload with one transaction and one withdrawal, under any declared hash. -/
def creatingAs (blockHash : Hash) : Payload where
  parentHash := .zero 32
  feeRecipient := .zero 20
  stateRoot := .zero 32
  receiptsRoot := .zero 32
  logsBloom := .zero 256
  prevRandao := .zero 32
  blockNumber := 1
  gasLimit := 30000000
  gasUsed := 21000
  timestamp := 12
  extraData := some [1, 2, 3]
  baseFeePerGas := 7
  blockHash := blockHash
  transactions := [creation]
  withdrawals := some [⟨0, 1, .zero 20, 5⟩]

/-- A payload with one transaction and one withdrawal, under its own hash. -/
def creating : Payload := creatingAs (creatingAs (.zero 32)).header.hash

/-- What it is accepted as. -/
def creatingBlock : Block :=
  ⟨⟨creating.header, creating.blockHash⟩, [⟨.legacy, keccak256 creation, creation⟩],
    creating.withdrawals⟩

/-- The header does not depend on the declared hash. -/
theorem header_creatingAs (blockHash : Hash) :
    (creatingAs blockHash).header = (creatingAs (.zero 32)).header := rfl

/-- The payload with a body passes every check. -/
theorem passes_creating : creating.Passes 32 [⟨.legacy, keccak256 creation, creation⟩] where
  fee := by decide
  hash := by
    rw [creating, header_creatingAs]
    rfl
  decoded := by
    have hraws : creating.transactions = [creation] := rfl
    simp [hraws, Transaction.Envelope.decodeAll, decode_creation]
  given := rfl
  extraData := by decide

/-- The payload with a body can be held in memory. -/
theorem addressable_creating : creating.Addressable where
  transactions := by decide
  withdrawals := by decide
  extraData := by decide

/-- **The block hash commits to the whole payload.** Two payloads that are accepted, under whatever
limits, and declare the same hash are equal in every field: the transactions byte by byte and in
their order, the withdrawals, and whether there can be any. Of the hash it is assumed that it does
not collide on the two headers, of the tries that rising leaves of the two payloads with one root
are the same. -/
theorem blockHash_injective {p q : Payload} {m n : Nat} {a b : Block}
    (hp : p.toBlock m = .ok a) (hq : q.toBlock n = .ok b) (hpa : p.Addressable)
    (hqa : q.Addressable)
    (hkeccak : keccak256 p.header.encode = keccak256 q.header.encode →
      p.header.encode = q.header.encode)
    (htransactions : Trie.Distinguished p.transactionLeaves q.transactionLeaves)
    (hwithdrawals : ∀ leaves ∈ p.withdrawalLeaves, ∀ others ∈ q.withdrawalLeaves,
      Trie.Distinguished leaves others)
    (hhash : p.blockHash = q.blockHash) : p = q := by
  obtain ⟨_, hpPasses, -⟩ := toBlock_eq_ok_iff.mp hp
  obtain ⟨_, hqPasses, -⟩ := toBlock_eq_ok_iff.mp hq
  have hheader := hpPasses.header_eq hqPasses hpa hqa hkeccak hhash
  exact hpPasses.ext hqPasses hheader hhash (transactions_eq hpa hqa htransactions hheader)
    (withdrawals_eq hpa hqa hwithdrawals hheader)

/-- The hash of the payload with a body determines it: the block that it is accepted as does not
show as any other payload. -/
theorem blockHash_injective_of_creating :
    creating.toBlock 32 = .ok creatingBlock ∧
      (ofBlock creatingBlock).toBlock 64 = .ok creatingBlock ∧
      creating = ofBlock creatingBlock := by
  have hshown : ofBlock creatingBlock = creating := passes_creating.ofBlock_eq
  have hfirst : creating.toBlock 32 = .ok creatingBlock :=
    toBlock_eq_ok_iff.mpr ⟨_, passes_creating, rfl⟩
  have hsecond : (ofBlock creatingBlock).toBlock 64 = .ok creatingBlock := by
    rw [hshown]
    exact toBlock_eq_ok_iff.mpr ⟨_, { passes_creating with extraData := by decide }, rfl⟩
  refine ⟨hfirst, hsecond, blockHash_injective hfirst hsecond addressable_creating ?_ ?_ ?_ ?_ ?_⟩
  · rw [hshown]
    exact addressable_creating
  · rw [hshown]
    exact fun _ => rfl
  · rw [hshown]
    exact fun _ _ _ => rfl
  · rw [hshown]
    rintro leaves hleaves others hothers - - -
    exact Option.some.inj (hleaves.symm.trans hothers)
  · rw [hshown]

end ExecutionNode.Payload
