import ExecutionNode.Bytes.Hex

/-!
# Faults of the node

A fault says that the node could not look at a block, never that the block is wrong.  What reads
the block store fails either with such a fault or because a body that should be there is
missing.
-/

namespace ExecutionNode

/-- What kind of part failed. -/
inductive FaultKind where
  /-- The storage of blocks or of the world state. -/
  | storage
  /-- The state trie. -/
  | trie
  /-- Data that should be here. -/
  | data
deriving DecidableEq

namespace FaultKind

/-- All kinds. -/
def all : List FaultKind := [storage, trie, data]

/-- The name of a kind. -/
def name : FaultKind → String
  | storage => "storage"
  | trie => "trie"
  | data => "data"

/-- The kind of a name. -/
def ofName? (name : String) : Option FaultKind := all.find? (·.name = name)

/-- The wording of a kind. -/
def text : FaultKind → String
  | storage => "storage"
  | trie => "trie consistency"
  | data => "data unavailable"

end FaultKind

/-- A failure of the node itself. -/
structure Fault where
  /-- What failed. -/
  kind : FaultKind
  /-- How. -/
  message : String
deriving DecidableEq

/-- The wording of a fault. -/
def Fault.text (f : Fault) : String := f.kind.text ++ " fault: " ++ f.message

/-- Why a block could not be read. -/
inductive ReadError where
  /-- The storage failed. -/
  | fault (f : Fault)
  /-- The body of a block is missing. -/
  | missingBody (hash : Hash)
deriving DecidableEq

/-- The wording of the error. -/
def ReadError.message : ReadError → String
  | fault f => f.text
  | missingBody hash => "block body missing for " ++ hash.text

end ExecutionNode
