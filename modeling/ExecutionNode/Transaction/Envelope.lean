import ExecutionNode.Transaction.Rlp
import ExecutionNode.Trie.Ordered

/-!
# Transactions as a block holds them

A block holds each transaction as the bytes that arrived, with its kind and its hash.  The bytes
must be exactly one transaction of a kind that a block may hold.
-/

namespace ExecutionNode

namespace Transaction

/-- Why bytes are not a transaction of a block. -/
inductive DecodeError where
  /-- There are no bytes. -/
  | empty
  /-- The transaction is well formed, but no block may hold its type. -/
  | unsupportedType (number : UInt8)
  /-- So many bytes follow the transaction. -/
  | trailingBytes (count : Nat)
  /-- No transaction can be read. -/
  | malformed
deriving DecidableEq

/-- The name of the error. -/
def DecodeError.kind : DecodeError → String
  | empty => "Empty"
  | unsupportedType _ => "UnsupportedType"
  | trailingBytes _ => "TrailingBytes"
  | malformed => "Malformed"

/-- The wording of the error; a malformed transaction has none of its own. -/
def DecodeError.message? : DecodeError → Option String
  | empty => some "empty transaction bytes"
  | unsupportedType number => some s!"unsupported transaction type {number.toNat}"
  | trailingBytes count => some s!"{count} trailing bytes after transaction"
  | malformed => none

/-- The kind with a type number. -/
def Kind.ofType (number : UInt8) : Except DecodeError Kind :=
  match Kind.ofNumber? number with
  | some kind => .ok kind
  | none => .error (.unsupportedType number)

/-- A transaction of a block. -/
structure Envelope where
  /-- Its kind. -/
  kind : Kind
  /-- The hash of its bytes. -/
  hash : Hash
  /-- Its bytes. -/
  raw : Bytes
deriving DecidableEq

namespace Envelope

/-- Reads the bytes of a transaction. Bytes behind it are reported before its type. -/
def decode (raw : Bytes) : Except DecodeError Envelope :=
  if raw.isEmpty then .error .empty
  else
    match Signed.decode?.run raw with
    | none => .error .malformed
    | some (tx, left) =>
      if left.isEmpty then
        match Kind.ofType tx.number with
        | .error e => .error e
        | .ok kind => .ok ⟨kind, keccak256 raw, raw⟩
      else .error (.trailingBytes left.length)

/-- Reads all transactions, up to the first that is refused. -/
def decodeAll : List Bytes → Except DecodeError (List Envelope)
  | [] => .ok []
  | raw :: rest =>
    match decode raw with
    | .error e => .error e
    | .ok tx =>
      match decodeAll rest with
      | .error e => .error e
      | .ok txs => .ok (tx :: txs)

end Envelope

/-- The root over the transactions of a block. -/
def root (transactions : List Envelope) : Hash := Trie.orderedRoot Envelope.raw transactions

end Transaction

end ExecutionNode
