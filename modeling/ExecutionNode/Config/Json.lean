import ExecutionNode.Config.Reading
import ExecutionNode.Header.Json

/-!
# Settings in JSON

A way to the head is given by its name, or by an object with null under its name, and a trusted
block like any block that is named by its number and its hash.
-/

namespace ExecutionNode

/-- The names that a JSON value can choose between. -/
def Json.choice? : Json.Decoder String
  | .str name => some name
  | .obj [(name, .null)] => some name
  | _ => none

/-- Settings in JSON. -/
def Config.json : Config.Format Json where
  record? := Json.recordOf?
  choice? := Json.choice?
  text? := Json.string?
  uint64? := Json.uint64?
  hash? := Json.fixed? 32
  isNull
    | .null => true
    | _ => false

/-- The fields of the settings of the synchronization. -/
def SyncConfig.shape : Json.Shape :=
  .fields (Config.Format.syncNames.map fun name =>
    (name, if name = "checkpoint" then BlockId.shape else .whole))

/-- The fields of the settings of a node. -/
def Config.shape : Json.Shape :=
  .fields
    [("sync", SyncConfig.shape), ("engine", .fields [("max_extra_data_size", .whole)])]

/-- Reads the settings of the synchronization. -/
def SyncConfig.ofJson? : Json.Decoder SyncConfig := Config.json.sync?

/-- Reads the settings of a node. -/
def Config.ofJson? : Json.Decoder Config := Config.json.config?

end ExecutionNode
