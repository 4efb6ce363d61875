import ExecutionNode.Bytes

/-!
# Signed transactions

The four kinds of transaction that a block may hold, each with the fields that its sender signed
and the signature.  The fields are exactly what the wire form carries, so a transaction and its
encoding determine each other; nothing is recovered or executed here.
-/

namespace ExecutionNode.Transaction

/-- The kinds of transaction that a block may hold. -/
inductive Kind where
  /-- A bare list of fields. -/
  | legacy
  /-- With a list of the storage it will touch. -/
  | accessList
  /-- With a tip and a fee limit in place of a price. -/
  | dynamicFee
  /-- With commitments to blobs. -/
  | blob
deriving DecidableEq

namespace Kind

/-- The number of a kind. -/
def number : Kind → UInt8
  | legacy => 0
  | accessList => 1
  | dynamicFee => 2
  | blob => 3

/-- The kind with a number. -/
def ofNumber? (n : UInt8) : Option Kind :=
  if n = 0 then some legacy
  else if n = 1 then some accessList
  else if n = 2 then some dynamicFee
  else if n = 3 then some blob
  else none

/-- The name of the proposal that introduced a kind. -/
def name : Kind → String
  | legacy => "legacy"
  | accessList => "eip2930"
  | dynamicFee => "eip1559"
  | blob => "eip4844"

end Kind

/-! ### Parts -/

/-- Where a transaction goes: a new contract if there is no address. -/
abbrev Recipient := Option Address

/-- The storage slots of one account that a transaction will touch. -/
structure Access where
  /-- The account. -/
  address : Address
  /-- Its slots. -/
  storageKeys : List Hash
deriving DecidableEq

/-- A signature of a typed transaction. -/
structure Signature where
  /-- Which of the two curve points is meant. -/
  yParity : Bool
  /-- The first number. -/
  r : U256
  /-- The second number. -/
  s : U256
deriving DecidableEq

/-- The fields that all kinds share. -/
structure Call where
  /-- The running number of the transaction among those of its sender. -/
  nonce : UInt64
  /-- The gas that it may use. -/
  gasLimit : UInt64
  /-- What it transfers. -/
  value : U256
  /-- Its input. -/
  data : Bytes
deriving DecidableEq

/-- A legacy transaction. Its signature says whether it is bound to a chain. -/
structure Legacy extends Call where
  /-- What it pays for gas. -/
  gasPrice : U128
  /-- Where it goes. -/
  recipient : Recipient
  /-- The chain that the signature is bound to. -/
  chainId : Option UInt64
  /-- The signature. -/
  signature : Signature
deriving DecidableEq

/-- A transaction with an access list. -/
structure WithAccessList extends Call where
  /-- The chain that it is meant for. -/
  chainId : UInt64
  /-- What it pays for gas. -/
  gasPrice : U128
  /-- Where it goes. -/
  recipient : Recipient
  /-- The storage it will touch. -/
  accessList : List Access
  /-- The signature. -/
  signature : Signature
deriving DecidableEq

/-- What a transaction pays at most. -/
structure Fees where
  /-- What it pays to the proposer. -/
  tip : U128
  /-- What it pays altogether. -/
  maxFee : U128
deriving DecidableEq

/-- A transaction with a tip and a fee limit. -/
structure DynamicFee extends Call, Fees where
  /-- The chain that it is meant for. -/
  chainId : UInt64
  /-- Where it goes. -/
  recipient : Recipient
  /-- The storage it will touch. -/
  accessList : List Access
  /-- The signature. -/
  signature : Signature
deriving DecidableEq

/-- A transaction that commits to blobs. -/
structure Blob extends Call, Fees where
  /-- The chain that it is meant for. -/
  chainId : UInt64
  /-- Where it goes. -/
  recipient : Address
  /-- The storage it will touch. -/
  accessList : List Access
  /-- What it pays at most for blob gas. -/
  maxFeePerBlobGas : U128
  /-- The hashes of the commitments to its blobs. -/
  blobHashes : List Hash
  /-- The signature. -/
  signature : Signature
deriving DecidableEq

/-- The blobs themselves, which travel with a transaction outside of blocks. -/
structure Sidecar where
  /-- The blobs. -/
  blobs : List (FixedBytes 131072)
  /-- The commitments to them. -/
  commitments : List (FixedBytes 48)
  /-- The proofs of the commitments. -/
  proofs : List (FixedBytes 48)
deriving DecidableEq

/-- The permission of an account to run the code of another. -/
structure Authorization where
  /-- The chain that it is meant for. -/
  chainId : UInt64
  /-- The account whose code will run. -/
  address : Address
  /-- The running number of the signer's transactions. -/
  nonce : UInt64
  /-- Which of the two curve points is meant. -/
  yParity : UInt8
  /-- The first number of the signature. -/
  r : U256
  /-- The second number of the signature. -/
  s : U256
deriving DecidableEq

/-- A transaction that sets the code of accounts. It can be read, but no block may hold it. -/
structure SetCode extends Call, Fees where
  /-- The chain that it is meant for. -/
  chainId : UInt64
  /-- Where it goes. -/
  recipient : Address
  /-- The storage it will touch. -/
  accessList : List Access
  /-- The permissions. -/
  authorizations : List Authorization
  /-- The signature. -/
  signature : Signature
deriving DecidableEq

/-- A signed transaction that can be read. -/
inductive Signed where
  /-- A legacy transaction. -/
  | legacy (tx : Legacy)
  /-- A transaction with an access list. -/
  | accessList (tx : WithAccessList)
  /-- A transaction with a tip and a fee limit. -/
  | dynamicFee (tx : DynamicFee)
  /-- A transaction that commits to blobs, with them or without. -/
  | blob (tx : Blob) (sidecar : Option Sidecar)
  /-- A transaction that sets the code of accounts. -/
  | setCode (tx : SetCode)
deriving DecidableEq

/-- The type number of a transaction. -/
def Signed.number : Signed → UInt8
  | .legacy _ => 0
  | .accessList _ => 1
  | .dynamicFee _ => 2
  | .blob _ _ => 3
  | .setCode _ => 4

end ExecutionNode.Transaction
