import ExecutionNode.Log.Line

/-!
# Setting up logs

Events go to the console and, if it is wanted, to a file.  The console's filter is built first;
then the directory of the file is created, and only then the filter of the file is built, so a bad
filter leaves the directory behind.
-/

namespace ExecutionNode.Log

/-- Where and how events are written. -/
structure Layer where
  /-- The form of the lines. -/
  format : Format := .terminal
  /-- The directive that holds where no other does. -/
  default : String := "info"
  /-- Further directives, with commas between them. -/
  filters : String := ""
  /-- The choice of colours. -/
  colors : Option String := some "always"

/-- The filter of a layer with its default directive. -/
def Layer.filter? (l : Layer) : Option Filter := do
  let default ← Directive.ofText? l.default
  let more ← Filter.ofText? l.filters
  some ⟨default :: more.directives⟩

/-- The logs of a node. -/
structure Setup where
  /-- The console. -/
  console : Layer := {}
  /-- The file. Its default directive is not used. -/
  file : Option Layer := none

/-- Why logs are not set up. -/
inductive SetupError where
  /-- A directive cannot be read. -/
  | directive
  /-- The directory of the file cannot be created. -/
  | directory
deriving DecidableEq

/-- What setting up logs leads to. -/
structure Started where
  /-- Why it failed, if it did. -/
  error : Option SetupError
  /-- Whether the directory of the file was created. -/
  madeDirectory : Bool
  /-- Whether a file is written. -/
  writesFile : Bool

/-- Sets up logs where the directory of the file can be created or not. -/
def Setup.start (s : Setup) (isCreatable : Bool) : Started :=
  match s.console.filter?, s.file with
  | none, _ => ⟨some .directive, false, false⟩
  | some _, none => ⟨none, false, false⟩
  | some _, some layer =>
    if !isCreatable then ⟨some .directory, false, false⟩
    else if (Filter.ofText? layer.filters).isNone then ⟨some .directive, true, false⟩
    else ⟨none, true, true⟩

end ExecutionNode.Log
