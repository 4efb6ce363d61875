import ExecutionNode.Bytes.Hex
import ExecutionNode.Trie.Ordered

/-!
# Block headers

A header has the fields that exist up to the introduction of withdrawals.  Its hash is the hash
of its binary form: a list of fifteen fields, then the base fee and the root over the
withdrawals as far as they are there.  A root without a base fee leaves an empty string in the
place of the fee, which is also how a fee of zero is written.

`encode` writes the fields one by one behind a marker for `payloadLength`, which is the sum of
the lengths of the fields; `toItem` is the same header as a tree.
-/

namespace ExecutionNode

/-- The number and the hash of a block. -/
structure BlockId where
  /-- The number. -/
  number : UInt64
  /-- The hash. -/
  hash : Hash
deriving DecidableEq

/-- The written form of a block's number and hash. -/
def BlockId.text (b : BlockId) : String := s!"#{b.number} ({b.hash.text})"

/-- A block header. -/
structure Header where
  /-- The hash of the parent's header. -/
  parentHash : Hash
  /-- The hash of the list of ommers. -/
  ommersHash : Hash
  /-- The account that collects the fees. -/
  beneficiary : Address
  /-- The root over the accounts after the block. -/
  stateRoot : Hash
  /-- The root over the transactions. -/
  transactionsRoot : Hash
  /-- The root over the receipts. -/
  receiptsRoot : Hash
  /-- The root over the withdrawals. -/
  withdrawalsRoot : Option Hash
  /-- The filter over the logs. -/
  logsBloom : Bloom
  /-- The difficulty. -/
  difficulty : U256
  /-- The number of ancestors. -/
  number : UInt64
  /-- The gas that the transactions may use. -/
  gasLimit : UInt64
  /-- The gas that they used. -/
  gasUsed : UInt64
  /-- The time of the block, in seconds. -/
  timestamp : UInt64
  /-- The random value of the slot before. -/
  mixHash : Hash
  /-- The nonce. -/
  nonce : UInt64
  /-- The base fee. -/
  baseFeePerGas : Option UInt64
  /-- Free bytes. -/
  extraData : Bytes
deriving DecidableEq

/-- The hash of an empty list of ommers. -/
def emptyOmmersHash : Hash := keccak256 (Rlp.list [])

namespace Header

/-- The header of a block without content, with all free fields zero. -/
def blank : Header where
  parentHash := .zero 32
  ommersHash := emptyOmmersHash
  beneficiary := .zero 20
  stateRoot := Trie.emptyRoot
  transactionsRoot := Trie.emptyRoot
  receiptsRoot := Trie.emptyRoot
  withdrawalsRoot := none
  logsBloom := .zero 256
  difficulty := 0
  number := 0
  gasLimit := 0
  gasUsed := 0
  timestamp := 0
  mixHash := .zero 32
  nonce := 0
  baseFeePerGas := none
  extraData := []

instance : Inhabited Header := ⟨blank⟩

/-- The number and the hash of the parent; the first block counts as its own predecessor in
number. -/
def parentId (h : Header) : BlockId := ⟨if h.number = 0 then 0 else h.number - 1, h.parentHash⟩

/-- Whether the header announces no transactions, ommers and withdrawals. -/
def isEmpty (h : Header) : Bool :=
  h.transactionsRoot == Trie.emptyRoot && h.ommersHash == emptyOmmersHash
    && h.withdrawalsRoot.all (· == Trie.emptyRoot)

/-! ### Binary form -/

/-- The encoded fields that every header has. -/
def fixedFields (h : Header) : Bytes :=
  Rlp.bytes h.parentHash.toList ++ Rlp.bytes h.ommersHash.toList ++ Rlp.bytes h.beneficiary.toList
    ++ Rlp.bytes h.stateRoot.toList ++ Rlp.bytes h.transactionsRoot.toList
    ++ Rlp.bytes h.receiptsRoot.toList ++ Rlp.bytes h.logsBloom.toList
    ++ Rlp.nat h.difficulty.toNat ++ Rlp.nat h.number.toNat ++ Rlp.nat h.gasLimit.toNat
    ++ Rlp.nat h.gasUsed.toNat ++ Rlp.nat h.timestamp.toNat ++ Rlp.bytes h.extraData
    ++ Rlp.bytes h.mixHash.toList ++ Rlp.bytes (bytesOfUInt64 h.nonce).toList

/-- The place of the base fee. -/
def feeField (h : Header) : Bytes :=
  match h.baseFeePerGas, h.withdrawalsRoot with
  | some fee, _ => Rlp.nat fee.toNat
  | none, some _ => [0x80]
  | none, none => []

/-- The place of the root over the withdrawals. -/
def withdrawalsField (h : Header) : Bytes :=
  match h.withdrawalsRoot with
  | some root => Rlp.bytes root.toList
  | none => []

/-- The length that the marker in front announces. -/
def payloadLength (h : Header) : Nat :=
  Rlp.bytesLength h.parentHash.toList + Rlp.bytesLength h.ommersHash.toList
    + Rlp.bytesLength h.beneficiary.toList + Rlp.bytesLength h.stateRoot.toList
    + Rlp.bytesLength h.transactionsRoot.toList + Rlp.bytesLength h.receiptsRoot.toList
    + Rlp.bytesLength h.logsBloom.toList + Rlp.natLength h.difficulty.toNat
    + Rlp.natLength h.number.toNat + Rlp.natLength h.gasLimit.toNat + Rlp.natLength h.gasUsed.toNat
    + Rlp.natLength h.timestamp.toNat + Rlp.bytesLength h.extraData
    + Rlp.bytesLength h.mixHash.toList + Rlp.bytesLength (bytesOfUInt64 h.nonce).toList
    + (match h.baseFeePerGas, h.withdrawalsRoot with
       | some fee, _ => Rlp.natLength fee.toNat
       | none, some _ => 1
       | none, none => 0)
    + (match h.withdrawalsRoot with
       | some root => Rlp.bytesLength root.toList
       | none => 0)

/-- The encoded header. -/
def encode (h : Header) : Bytes :=
  Rlp.marker 0xc0 h.payloadLength ++ h.fixedFields ++ h.feeField ++ h.withdrawalsField

/-- The announced length of the encoded header. -/
def length (h : Header) : Nat := Rlp.markerLength h.payloadLength + h.payloadLength

/-- The hash of the header. -/
def hash (h : Header) : Hash := keccak256 h.encode

/-- The header as a tree. -/
def toItem (h : Header) : Rlp.Item :=
  .list ([.str h.parentHash.toList, .str h.ommersHash.toList, .str h.beneficiary.toList,
    .str h.stateRoot.toList, .str h.transactionsRoot.toList, .str h.receiptsRoot.toList,
    .str h.logsBloom.toList, .nat h.difficulty.toNat, .nat h.number.toNat, .nat h.gasLimit.toNat,
    .nat h.gasUsed.toNat, .nat h.timestamp.toNat, .str h.extraData, .str h.mixHash.toList,
    .str (bytesOfUInt64 h.nonce).toList]
    ++ (match h.baseFeePerGas, h.withdrawalsRoot with
        | some fee, _ => [.nat fee.toNat]
        | none, some _ => [.str []]
        | none, none => [])
    ++ (match h.withdrawalsRoot with
        | some root => [.str root.toList]
        | none => []))

end Header

/-! ### Sealed headers -/

/-- A header together with the hash that its sender declared for it. -/
structure SealedHeader where
  /-- The header. -/
  header : Header
  /-- The declared hash. -/
  hash : Hash
deriving DecidableEq

namespace SealedHeader

/-- The number of the block. -/
def number (h : SealedHeader) : UInt64 := h.header.number

/-- The number and the declared hash. -/
def id (h : SealedHeader) : BlockId := ⟨h.header.number, h.hash⟩

/-- Whether the declared hash is the hash of the header. -/
def hasValidHash (h : SealedHeader) : Bool := h.header.hash == h.hash

end SealedHeader

/-- The header with its own hash. -/
def Header.sealed (h : Header) : SealedHeader := ⟨h, h.hash⟩

theorem Header.hasValidHash_sealed (h : Header) : h.sealed.hasValidHash = true := by
  simp [Header.sealed, SealedHeader.hasValidHash]

instance : Inhabited SealedHeader := ⟨Header.blank.sealed⟩

end ExecutionNode
