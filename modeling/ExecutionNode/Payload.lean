import ExecutionNode.Block
import ExecutionNode.Json.Decoder

/-!
# Execution payloads

A payload is a block as the consensus layer sends it: the fields of the header that are not
fixed, the declared hash, and the body.  `Payload.header` is the header that the fields commit
to; `Payload.toBlock` accepts the payload as a block or names the first thing that is wrong, in
a fixed order of checks; `Payload.ofBlock` shows a block as a payload.
-/

namespace ExecutionNode

/-- A block as the consensus layer sends it. -/
structure Payload where
  /-- The hash of the parent. -/
  parentHash : Hash
  /-- The account that collects the fees. -/
  feeRecipient : Address
  /-- The root over the accounts after the block. -/
  stateRoot : Hash
  /-- The root over the receipts. -/
  receiptsRoot : Hash
  /-- The filter over the logs. -/
  logsBloom : Bloom
  /-- The random value of the slot before. -/
  prevRandao : Hash
  /-- The number of ancestors. -/
  blockNumber : UInt64
  /-- The gas that the transactions may use. -/
  gasLimit : UInt64
  /-- The gas that they used. -/
  gasUsed : UInt64
  /-- The time of the block, in seconds. -/
  timestamp : UInt64
  /-- Free bytes; a payload may lack them until it has to become a block. -/
  extraData : Option Bytes
  /-- The base fee, possibly too wide for a header. -/
  baseFeePerGas : U256
  /-- The declared hash. -/
  blockHash : Hash
  /-- The bytes of each transaction. -/
  transactions : List Bytes
  /-- The withdrawals, if the block can have any. -/
  withdrawals : Option (List Withdrawal)
deriving DecidableEq

namespace Payload

/-- Why a payload is not a block. -/
inductive ConversionError where
  /-- The declared hash is not the hash of the header. -/
  | blockHash (computed declared : Hash)
  /-- The base fee needs more than 64 bits. -/
  | baseFee (fee : U256)
  /-- A transaction is not one. -/
  | transaction (cause : Transaction.DecodeError)
  /-- A field is missing. -/
  | missingField (name : String)
  /-- The free bytes are longer than the limit. -/
  | extraDataTooLarge (max : Nat)
deriving DecidableEq

namespace ConversionError

/-- The name of the error. -/
def kind : ConversionError → String
  | blockHash .. => "BlockHash"
  | baseFee _ => "BaseFee"
  | transaction _ => "Transaction"
  | missingField _ => "MissingField"
  | extraDataTooLarge _ => "ExtraDataTooLarge"

/-- The wording of the error. -/
def message : ConversionError → String
  | blockHash computed declared =>
    s!"block hash mismatch: want {declared.text}, got {computed.text}"
  | baseFee fee => s!"invalid base fee per gas: {fee.toNat}"
  | transaction _ => "Failed to decode transactions from block parameter"
  | missingField name => s!"Field {name} must not be null"
  | extraDataTooLarge max => s!"Field extraData exceeds maximum size of {max} bytes"

/-- Whether the declared hash is what is wrong. -/
def isHashMismatch : ConversionError → Bool
  | blockHash .. => true
  | _ => false

end ConversionError

/-- The base fee cut down to what a header can hold. -/
def headerFee (p : Payload) : UInt64 := UInt64.ofNat (min p.baseFeePerGas.toNat (UInt64.size - 1))

/-- The header that the payload commits to. Missing free bytes count as empty ones. -/
def header (p : Payload) : Header where
  parentHash := p.parentHash
  ommersHash := emptyOmmersHash
  beneficiary := p.feeRecipient
  stateRoot := p.stateRoot
  transactionsRoot := Trie.orderedRoot (fun raw => raw) p.transactions
  receiptsRoot := p.receiptsRoot
  withdrawalsRoot := p.withdrawals.map Withdrawal.root
  logsBloom := p.logsBloom
  difficulty := 0
  number := p.blockNumber
  gasLimit := p.gasLimit
  gasUsed := p.gasUsed
  timestamp := p.timestamp
  mixHash := p.prevRandao
  nonce := 0
  baseFeePerGas := some p.headerFee
  extraData := p.extraData.getD []

/-- Accepts the payload as a block whose free bytes have a limited length. The checks are made in
this order: the width of the base fee, the declared hash, the transactions, the free bytes. -/
def toBlock (p : Payload) (maxExtraData : Nat) : Except ConversionError Block :=
  if p.baseFeePerGas.toNat ≥ UInt64.size then .error (.baseFee p.baseFeePerGas)
  else
    let header := p.header
    let computed := header.hash
    if computed ≠ p.blockHash then .error (.blockHash computed p.blockHash)
    else
      match Transaction.Envelope.decodeAll p.transactions with
      | .error cause => .error (.transaction cause)
      | .ok transactions =>
        match p.extraData with
        | none => .error (.missingField "extraData")
        | some extra =>
          if extra.length > maxExtraData then .error (.extraDataTooLarge maxExtraData)
          else .ok ⟨⟨header, p.blockHash⟩, transactions, p.withdrawals⟩

/-- A block as a payload. -/
def ofBlock (b : Block) : Payload :=
  let h := b.header.header
  { parentHash := h.parentHash
    feeRecipient := h.beneficiary
    stateRoot := h.stateRoot
    receiptsRoot := h.receiptsRoot
    logsBloom := h.logsBloom
    prevRandao := h.mixHash
    blockNumber := h.number
    gasLimit := h.gasLimit
    gasUsed := h.gasUsed
    timestamp := h.timestamp
    extraData := some h.extraData
    baseFeePerGas := BitVec.ofNat 256 (h.baseFeePerGas.getD 0).toNat
    blockHash := b.hash
    transactions := b.transactions.map (·.raw)
    withdrawals := b.withdrawals }

end Payload

end ExecutionNode
