import ExecutionNode.Config.Reading
import ExecutionNode.Toml.Document

/-!
# Settings in TOML

The file of the settings has one table for each group of them.  Whole numbers in TOML have 63 bits
and a sign, so settings with a longer word cannot be written; everything that can be written is
read back as it was.
-/

namespace ExecutionNode

namespace Toml

/-- A table, or an array in the place of one, of which only so many items count. A moment counts
as a table with none of the names. -/
def record? (names : List String) : Toml → Option (Record Toml)
  | .table _ fields => some (.ofFields fields)
  | .list items => some (.ofPositions names (items.take names.length))
  | .series items => some (.ofPositions names (items.take names.length))
  | .moment _ => some (.ofFields [])
  | _ => none

/-- Whether the value is an array or a table without parts. -/
def isHollow : Toml → Bool
  | .table _ fields => fields.isEmpty
  | .list items => items.isEmpty
  | .series items => items.isEmpty
  | _ => false

/-- A name that is chosen: as a text, or as the only name of a table, with nothing in it. -/
def choice? : Toml → Option String
  | .text name => some name
  | .table _ [(name, value)] => if value.isHollow then some name else none
  | _ => none

/-- A text. -/
def asText? : Toml → Option String
  | .text s => some s
  | _ => none

/-- A whole number that is a word of 64 bits. -/
def uint64? : Toml → Option UInt64
  | .integer n => if 0 ≤ n ∧ n.toNat < UInt64.size then some (UInt64.ofNat n.toNat) else none
  | _ => none

/-- A whole number that is an octet. -/
def uint8? : Toml → Option UInt8
  | .integer n => if 0 ≤ n ∧ n.toNat < UInt8.size then some (UInt8.ofNat n.toNat) else none
  | _ => none

/-- A byte string of one length: hexadecimal digits or an array of octets, behind which anything may
follow that does not begin with one more octet. -/
def fixed? (n : Nat) : Toml → Option (FixedBytes n)
  | .text s => Hex.fixed? n s
  | .list items =>
    if ((items.drop n).head? >>= uint8?).isSome then none
    else (items.take n).mapM uint8? >>= FixedBytes.ofList? n
  | _ => none

end Toml

namespace Config

/-- Settings in TOML. -/
def toml : Config.Format Toml where
  record? := Toml.record?
  choice? := Toml.choice?
  text? := Toml.asText?
  uint64? := Toml.uint64?
  hash? := Toml.fixed? 32
  isNull _ := false

/-- Reads settings. -/
def ofToml? (text : String) : Option Config := Toml.parse? text >>= toml.config?

/-- A word as a value of a file. -/
def wholeNumber? (name : String) (n : UInt64) : Option (String × Toml.Scalar) :=
  if n.toNat < Toml.integerCount then some (name, .natural n.toNat) else none

/-- The tables of a file. -/
def sections? (c : Config) : Option (List Toml.Section) := do
  let distance ← wholeNumber? "pivot_distance" c.sync.pivotDistance
  let minPeers ← wholeNumber? "min_peers_for_pivot" c.sync.minPeersForPivot
  let maxTrailing ← c.sync.maxTrailingPeers.toList.mapM (wholeNumber? "max_trailing_peers")
  let tolerance ← wholeNumber? "in_sync_tolerance" c.sync.tolerance
  let checkpoint ← c.sync.checkpoint.toList.mapM fun trusted => do
    let number ← wholeNumber? "number" trusted.number
    some
      { header := ⟨["sync"], "checkpoint"⟩
        entries := [number, ("hash", .text trusted.hash.text)] }
  let maxExtraData ← wholeNumber? "max_extra_data_size" c.engine.maxExtraData
  let sync : Toml.Section :=
    { header := ⟨[], "sync"⟩
      entries :=
        [("sync_mode", .text c.sync.mode.name), distance, minPeers,
          ("pivot_selection_timeout", .text c.sync.pivotTimeout.words)]
        ++ maxTrailing ++ [tolerance] }
  some (sync :: checkpoint ++ [{ header := ⟨[], "engine"⟩, entries := [maxExtraData] }])

/-- The text of a file with the settings, if they can be written. -/
def toToml? (c : Config) : Option String := c.sections?.map Toml.write

/-! ### Files of settings -/

/-- Why settings are not loaded or saved. -/
inductive FileError where
  /-- The text is not TOML, or not of these settings. -/
  | unreadable
  /-- A number is too large to be written. -/
  | unwritable
  /-- The settings cannot be used together. -/
  | invalid (problem : Problem)
deriving DecidableEq

/-- The wording of an error. -/
def FileError.message : FileError → String
  | unreadable => "Bad TOML data"
  | unwritable => "Failed to serialize configuration data into TOML"
  | invalid problem => "invalid config: " ++ problem.message

/-- Refuses settings that cannot be used together. -/
def check (c : Config) : Except FileError Config :=
  match c.problem? with
  | none => .ok c
  | some problem => .error (.invalid problem)

/-- Loads settings from the text of a file. -/
def load (text : String) : Except FileError Config :=
  match ofToml? text with
  | none => .error .unreadable
  | some c => c.check

/-- The text of the file into which settings are saved. -/
def save (c : Config) : Except FileError String :=
  match c.toToml? with
  | none => .error .unwritable
  | some text => .ok text

end Config

end ExecutionNode
