import ExecutionNode.Transaction
import ExecutionNode.Rlp.Reader

/-!
# The wire form of a transaction

A legacy transaction is a bare list of its fields and its signature; every other kind is its
type number followed by such a list.  A legacy signature tells in one number which curve point
is meant and whether the transaction is bound to a chain: 27 or 28 without a chain, otherwise
35 or 36 plus twice the chain's number.
-/

namespace ExecutionNode.Transaction

open Rlp

/-! ### Parts -/

/-- The number in which a legacy signature tells its curve point and chain. -/
def legacyMark (chainId : Option UInt64) (yParity : Bool) : Nat :=
  match chainId with
  | none => 27 + yParity.toNat
  | some chain => 35 + 2 * chain.toNat + yParity.toNat

/-- The curve point and chain that a number tells. -/
def ofLegacyMark? (v : Nat) : Option (Option UInt64 × Bool) :=
  if v = 27 then some (none, false)
  else if v = 28 then some (none, true)
  else if 35 ≤ v ∧ (v - 35) / 2 < UInt64.size then
    some (some (UInt64.ofNat ((v - 35) / 2)), (v - 35) % 2 = 1)
  else none

/-- A recipient as a leaf: empty for a new contract. -/
def recipientItem : Recipient → Item
  | none => .str []
  | some a => .str a.toList

/-- An access list as a tree. -/
def accessItem (accesses : List Access) : Item :=
  .list (accesses.map fun a =>
    .list [.str a.address.toList, .list (a.storageKeys.map fun k => .str k.toList)])

/-- A signature as three leaves. -/
def signatureItems (s : Signature) : List Item :=
  [.nat s.yParity.toNat, .nat s.r.toNat, .nat s.s.toNat]

/-- Reads a recipient. -/
def recipient? : Reader Recipient := do
  let octets ← string?
  if octets.isEmpty then pure none
  else
    match FixedBytes.ofList? 20 octets with
    | some a => pure (some a)
    | none => failure

/-- Reads an access list. -/
def access? : Reader (List Access) :=
  listOf (exactly do
    let address ← fixed? 20
    let storageKeys ← listOf (fixed? 32)
    pure ⟨address, storageKeys⟩)

/-- Reads a signature. -/
def signature? : Reader Signature := do
  let yParity ← bool?
  let r ← uint256?
  let s ← uint256?
  pure ⟨yParity, r, s⟩

/-! ### Writing -/

/-- A legacy transaction as a tree. -/
def Legacy.toItem (t : Legacy) : Item :=
  .list [.nat t.nonce.toNat, .nat t.gasPrice.toNat, .nat t.gasLimit.toNat,
    recipientItem t.recipient, .nat t.value.toNat, .str t.data,
    .nat (legacyMark t.chainId t.signature.yParity), .nat t.signature.r.toNat,
    .nat t.signature.s.toNat]

/-- A transaction with an access list as a tree. -/
def WithAccessList.toItem (t : WithAccessList) : Item :=
  .list ([.nat t.chainId.toNat, .nat t.nonce.toNat, .nat t.gasPrice.toNat, .nat t.gasLimit.toNat,
    recipientItem t.recipient, .nat t.value.toNat, .str t.data, accessItem t.accessList]
    ++ signatureItems t.signature)

/-- A transaction with a tip and a fee limit as a tree. -/
def DynamicFee.toItem (t : DynamicFee) : Item :=
  .list ([.nat t.chainId.toNat, .nat t.nonce.toNat, .nat t.tip.toNat, .nat t.maxFee.toNat,
    .nat t.gasLimit.toNat, recipientItem t.recipient, .nat t.value.toNat, .str t.data,
    accessItem t.accessList] ++ signatureItems t.signature)

/-- A transaction that commits to blobs as a tree. -/
def Blob.toItem (t : Blob) : Item :=
  .list ([.nat t.chainId.toNat, .nat t.nonce.toNat, .nat t.tip.toNat, .nat t.maxFee.toNat,
    .nat t.gasLimit.toNat, .str t.recipient.toList, .nat t.value.toNat, .str t.data,
    accessItem t.accessList, .nat t.maxFeePerBlobGas.toNat,
    .list (t.blobHashes.map fun h => .str h.toList)] ++ signatureItems t.signature)

/-- Blobs, commitments and proofs as three trees. -/
def Sidecar.items (c : Sidecar) : List Item :=
  [.list (c.blobs.map fun b => .str b.toList), .list (c.commitments.map fun b => .str b.toList),
    .list (c.proofs.map fun b => .str b.toList)]

/-- A transaction that sets code as a tree. -/
def SetCode.toItem (t : SetCode) : Item :=
  .list ([.nat t.chainId.toNat, .nat t.nonce.toNat, .nat t.tip.toNat, .nat t.maxFee.toNat,
    .nat t.gasLimit.toNat, .str t.recipient.toList, .nat t.value.toNat, .str t.data,
    accessItem t.accessList,
    .list (t.authorizations.map fun a =>
      .list [.nat a.chainId.toNat, .str a.address.toList, .nat a.nonce.toNat,
        .nat a.yParity.toNat, .nat a.r.toNat, .nat a.s.toNat])] ++ signatureItems t.signature)

/-- The wire form of a transaction. -/
def Signed.encode : Signed → Bytes
  | .legacy t => t.toItem.encode
  | .accessList t => 1 :: t.toItem.encode
  | .dynamicFee t => 2 :: t.toItem.encode
  | .blob t none => 3 :: t.toItem.encode
  | .blob t (some c) => 3 :: (Item.list (t.toItem :: c.items)).encode
  | .setCode t => 4 :: t.toItem.encode

/-! ### Reading -/

/-- Reads a legacy transaction. -/
def legacy? : Reader Legacy := exactly do
  let nonce ← uint64?
  let gasPrice ← uint128?
  let gasLimit ← uint64?
  let recipient ← recipient?
  let value ← uint256?
  let data ← string?
  let v ← nat? 16
  let r ← uint256?
  let s ← uint256?
  match ofLegacyMark? v with
  | some (chainId, yParity) =>
    let signature : Signature := ⟨yParity, r, s⟩
    pure { nonce, gasLimit, value, data, gasPrice, recipient, chainId, signature }
  | none => failure

/-- Reads a transaction with an access list. -/
def withAccessList? : Reader WithAccessList := exactly do
  let chainId ← uint64?
  let nonce ← uint64?
  let gasPrice ← uint128?
  let gasLimit ← uint64?
  let recipient ← recipient?
  let value ← uint256?
  let data ← string?
  let accessList ← access?
  let signature ← signature?
  pure { nonce, gasLimit, value, data, chainId, gasPrice, recipient, accessList, signature }

/-- Reads a transaction with a tip and a fee limit. -/
def dynamicFee? : Reader DynamicFee := exactly do
  let chainId ← uint64?
  let nonce ← uint64?
  let tip ← uint128?
  let maxFee ← uint128?
  let gasLimit ← uint64?
  let recipient ← recipient?
  let value ← uint256?
  let data ← string?
  let accessList ← access?
  let signature ← signature?
  pure { nonce, gasLimit, value, data, tip, maxFee, chainId, recipient, accessList, signature }

/-- Reads a transaction that commits to blobs. -/
def blob? : Reader Blob := exactly do
  let chainId ← uint64?
  let nonce ← uint64?
  let tip ← uint128?
  let maxFee ← uint128?
  let gasLimit ← uint64?
  let recipient ← fixed? 20
  let value ← uint256?
  let data ← string?
  let accessList ← access?
  let maxFeePerBlobGas ← uint128?
  let blobHashes ← listOf (fixed? 32)
  let signature ← signature?
  pure { nonce, gasLimit, value, data, tip, maxFee, chainId, recipient, accessList,
         maxFeePerBlobGas, blobHashes, signature }

/-- Reads a transaction that commits to blobs together with the blobs. -/
def blobWithSidecar? : Reader (Blob × Sidecar) := exactly do
  let tx ← blob?
  let blobs ← listOf (fixed? 131072)
  let commitments ← listOf (fixed? 48)
  let proofs ← listOf (fixed? 48)
  pure (tx, ⟨blobs, commitments, proofs⟩)

/-- Whether the first member of the list in front is itself a list. -/
def startsWithList (input : Bytes) : Bool :=
  match (listHeader.run input).bind fun (_, rest) => listHeader.run rest with
  | some _ => true
  | none => false

/-- Reads a transaction that commits to blobs, with them if its first member is a list. -/
def blobs? : Reader Signed := fun input =>
  if startsWithList input then
    (do let (tx, sidecar) ← blobWithSidecar?
        pure (Signed.blob tx (some sidecar))).run input
  else ((Signed.blob · none) <$> blob?).run input

/-- Reads a permission to run code. -/
def authorization? : Reader Authorization := exactly do
  let chainId ← uint64?
  let address ← fixed? 20
  let nonce ← uint64?
  let yParity ← UInt8.ofNat <$> nat? 1
  let r ← uint256?
  let s ← uint256?
  pure ⟨chainId, address, nonce, yParity, r, s⟩

/-- Reads a transaction that sets code. -/
def setCode? : Reader SetCode := exactly do
  let chainId ← uint64?
  let nonce ← uint64?
  let tip ← uint128?
  let maxFee ← uint128?
  let gasLimit ← uint64?
  let recipient ← fixed? 20
  let value ← uint256?
  let data ← string?
  let accessList ← access?
  let authorizations ← listOf authorization?
  let signature ← signature?
  pure { nonce, gasLimit, value, data, tip, maxFee, chainId, recipient, accessList,
         authorizations, signature }

/-- Reads a transaction from the front of a byte string: by its type number if the first octet is
below `0x80`, as a legacy transaction otherwise. -/
def Signed.decode? : Reader Signed
  | [] => none
  | b :: rest =>
    if b = 1 then (Signed.accessList <$> withAccessList?).run rest
    else if b = 2 then (Signed.dynamicFee <$> dynamicFee?).run rest
    else if b = 3 then blobs?.run rest
    else if b = 4 then (Signed.setCode <$> setCode?).run rest
    else if b < 0x80 then none
    else (Signed.legacy <$> legacy?).run (b :: rest)

end ExecutionNode.Transaction
