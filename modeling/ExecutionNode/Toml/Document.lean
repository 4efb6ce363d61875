import ExecutionNode.Toml.Reader

/-!
# TOML documents

A document is a sequence of statements, one a line: headers, which say to which table the keys
below them belong, and keys with their values.  `Toml.parse?` reads the statements and lays them
out as one table; `Toml.write` writes sections, each with the header of its table.
-/

namespace ExecutionNode.Toml

/-- A line of a document. -/
inductive Statement where
  /-- The header of a table. -/
  | table (key : Key)
  /-- The header of one more table of a series. -/
  | element (key : Key)
  /-- A key with its value. -/
  | assignment (key : Key) (value : Toml)

/-! ### Reading lines -/

/-- What follows a line of which only blanks and a comment are left. -/
def lineEnd? (cs : List Char) : Option (List Char) :=
  let afterComment :=
    match skipSpaces cs with
    | '#' :: rest => rest.dropWhile isPlain
    | rest => rest
  match afterComment with
  | [] => some []
  | rest => lineBreak? rest

/-- Reads a header or a key with its value. -/
def statement? (cs : List Char) : Option (Statement × List Char) :=
  match cs with
  | '[' :: '[' :: rest => do
    let (key, rest) ← key? rest
    let rest ← mark? ']' rest >>= mark? ']'
    some (.element key, rest)
  | '[' :: rest => do
    let (key, rest) ← key? rest
    let rest ← mark? ']' rest
    some (.table key, rest)
  | cs => do
    let (key, rest) ← key? cs
    let rest ← mark? '=' rest
    let (value, rest) ← readValue? (skipSpaces rest)
    some (.assignment key value, rest)

/-- Reads the statements of all lines. -/
def statements? : (bound : Nat) → List Char → Option (List Statement)
  | 0, _ => none
  | bound + 1, cs =>
    match skipSpaces cs with
    | [] => some []
    | cs =>
      match lineEnd? cs with
      | some rest => statements? bound rest
      | none => do
        let (statement, rest) ← statement? cs
        let rest ← lineEnd? rest
        some (statement :: (← statements? bound rest))

/-! ### Layout -/

/-- The table of a document with the way to the table that keys are put into. -/
structure Layout where
  /-- The way. -/
  current : List String := []
  /-- The fields of the whole table. -/
  fields : Fields := []

/-- Begins a table. Only one that came about on the way to others may be there already. -/
def beginTable? (name : String) (fields : Fields) : Option Fields :=
  match lookup? name fields with
  | none => some (fields ++ [(name, .table .header [])])
  | some (.table .implied inner) => some (replace name (.table .header inner) fields)
  | some _ => none

/-- Begins one more table of a series. -/
def beginElement? (name : String) (fields : Fields) : Option Fields :=
  match lookup? name fields with
  | none => some (fields ++ [(name, .series [.table .header []])])
  | some (.series items) => some (replace name (.series (items ++ [.table .header []])) fields)
  | some _ => none

namespace Layout

/-- Goes to the table of a header. -/
def enter? (l : Layout) (key : Key) (begin? : String → Fields → Option Fields) :
    Option Layout := do
  let fields ←
    update? .ofHeader (fun _ fields => begin? key.name fields) key.path .header l.fields
  some { current := key.path ++ [key.name], fields }

/-- Follows a statement. -/
def follow? (l : Layout) : Statement → Option Layout
  | .table key => l.enter? key beginTable?
  | .element key => l.enter? key beginElement?
  | .assignment key value => do
    let fields ← update? .ofHeader (assign? key value) l.current .header l.fields
    some { l with fields }

end Layout

/-- The table that statements describe. -/
def ofStatements? (statements : List Statement) : Option Toml := do
  let layout ← statements.foldlM Layout.follow? {}
  some (.table .header layout.fields)

/-- Reads a document. A byte order mark may stand in front. -/
def parse? (s : String) : Option Toml := do
  let cs :=
    match s.toList with
    | '\ufeff' :: rest => rest
    | cs => cs
  let statements ← statements? (cs.length + 1) cs
  ofStatements? statements

/-! ### Writing -/

/-- A value that takes one line. -/
inductive Scalar where
  /-- A text. -/
  | text (s : String)
  /-- A natural number. -/
  | natural (n : Nat)

/-- The value as a TOML value. -/
def Scalar.value : Scalar → Toml
  | text s => .text s
  | natural n => .integer n

/-- The value as it is written. -/
def Scalar.write : Scalar → List Char
  | text s => quote s
  | natural n => Nat.toDigits 10 n

/-- A table with values of one line. -/
structure Section where
  /-- The header. -/
  header : Key
  /-- The names with their values. -/
  entries : List (String × Scalar)

namespace Section

/-- The line of a name with its value. -/
def writeEntry (entry : String × Scalar) : List Char :=
  entry.1.toList ++ " = ".toList ++ entry.2.write ++ ['\n']

/-- The line of a header. -/
def writeHeader (header : Key) : List Char :=
  let way := header.path.flatMap fun name => name.toList ++ ['.']
  '[' :: way ++ header.name.toList ++ "]\n".toList

/-- The lines of the section. -/
def write (s : Section) : List Char := writeHeader s.header ++ s.entries.flatMap writeEntry

/-- The statements of the section. -/
def statements (s : Section) : List Statement :=
  .table s.header :: s.entries.map fun (name, value) => .assignment ⟨[], name⟩ value.value

end Section

/-- Writes sections with an empty line between them. -/
def write (sections : List Section) : String :=
  String.ofList (['\n'].intercalate (sections.map Section.write))

end ExecutionNode.Toml
