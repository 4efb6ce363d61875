import ExecutionNode.Payload.Attributes
import ExecutionNode.Summary

/-!
# Statuses

The answer to a payload is a verdict with, for some verdicts, the hash of the latest valid
ancestor.  Only the verdict `invalid` may carry an error text.  In JSON the verdict and its
error text stand beside the hash in one record; the verdict is read by name or by its number in
the order of declaration, and an error text beside another verdict is ignored.
-/

namespace ExecutionNode

/-- What the engine says about a payload. -/
inductive Verdict where
  /-- The payload is known or was just executed. -/
  | valid
  /-- The payload or an ancestor of it is invalid. -/
  | invalid (error : Option String)
  /-- The payload cannot be judged before more of the chain is here. -/
  | syncing
  /-- The payload is kept but was not executed. -/
  | accepted
  /-- The declared hash is not the hash of the payload. -/
  | invalidBlockHash
deriving DecidableEq

namespace Verdict

/-- The name of a verdict. -/
def name : Verdict → String
  | valid => "VALID"
  | invalid _ => "INVALID"
  | syncing => "SYNCING"
  | accepted => "ACCEPTED"
  | invalidBlockHash => "INVALID_BLOCK_HASH"

/-- The verdicts in the order of their numbers. -/
def all : List Verdict := [valid, invalid none, syncing, accepted, invalidBlockHash]

/-- The error text. -/
def error? : Verdict → Option String
  | invalid error => error
  | _ => none

/-- The verdict with a name. -/
def ofName? (name : String) : Option Verdict := all.find? (·.name = name)

/-- Reads the name or the number of a verdict. -/
def tag? : Json.Decoder Verdict
  | .str name => ofName? name
  | .num (.natural n) => all[n]?
  | _ => none

end Verdict

/-- The answer to a payload. -/
structure PayloadStatus where
  /-- The verdict. -/
  verdict : Verdict
  /-- The hash of the latest valid ancestor. -/
  latestValidHash : Option Hash
deriving DecidableEq

namespace PayloadStatus

/-! ### The answers of the engine -/

/-- A verdict alone. -/
def bare (verdict : Verdict) : PayloadStatus := ⟨verdict, none⟩

/-- A valid block is its own latest valid ancestor. -/
def valid (hash : Hash) : PayloadStatus := ⟨.valid, some hash⟩

/-- An invalid payload. -/
def invalid (latestValidHash : Option Hash) (error : Option String) : PayloadStatus :=
  ⟨.invalid error, latestValidHash⟩

/-- Nothing can be said yet. -/
def syncing : PayloadStatus := bare .syncing

/-- The payload is kept. -/
def accepted : PayloadStatus := bare .accepted

/-- The declared hash is wrong. -/
def invalidBlockHash : PayloadStatus := bare .invalidBlockHash

/-- Whether the verdict is `valid`. -/
def isValid (s : PayloadStatus) : Bool := s.verdict == .valid

/-- Whether the verdict is `invalid`. -/
def isInvalid (s : PayloadStatus) : Bool :=
  match s.verdict with
  | .invalid _ => true
  | _ => false

/-- Whether the verdict is `syncing`. -/
def isSyncing (s : PayloadStatus) : Bool := s.verdict == .syncing

/-- The status in words. -/
def text (s : PayloadStatus) : String :=
  Summary.record "PayloadStatus"
    ([("status", s.verdict.name),
      ("latestValidHash", Summary.option (·.text) s.latestValidHash)]
      ++ (s.verdict.error?.map fun e => ("validationError", e)).toList) false

/-! ### JSON form -/

/-- The fields of a status with their values. -/
def jsonFields (s : PayloadStatus) : List (String × Json) :=
  ("status", .str s.verdict.name)
    :: (match s.verdict.error? with
        | none => []
        | some e => [("validationError", .str e)])
    ++ (match s.latestValidHash with
        | none => []
        | some h => [("latestValidHash", .ofFixed h)])

/-- The status as a record. -/
def toJson (s : PayloadStatus) : Json := .obj s.jsonFields

/-- The fields of a status. The record is searched twice, for the verdict and for what belongs to
the verdict, so all of its fields are read. -/
def shape : Json.Shape := .record [("latestValidHash", .octets 32)] .whole

/-- Reads a status. Unlike other records it has no array form. -/
def ofJson? : Json.Decoder PayloadStatus
  | .obj fields => do
    let r ← Json.recordOf? ["status", "latestValidHash"] (.obj fields)
    let latestValidHash ← r.nullable "latestValidHash" (Json.fixed? 32)
    let verdict ← r.required "status" Verdict.tag?
    match verdict with
    | .invalid _ =>
      let e ← Json.recordOf? ["validationError"] (.obj fields)
      let error ← e.nullable "validationError" Json.string?
      some ⟨.invalid error, latestValidHash⟩
    | verdict => some ⟨verdict, latestValidHash⟩
  | _ => none

end PayloadStatus

end ExecutionNode
