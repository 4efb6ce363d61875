import ExecutionNode.Bytes.Hex

/-!
# Texts in TOML

A text stands between quotes on one line, or between threefold quotes over several.  Between
double quotes a backslash begins an escape; between single quotes every character stands for
itself.  Control characters other than the tab are refused.

Readers take the characters from the front and return what they have read with the rest.
-/

namespace ExecutionNode.Toml

/-! ### Characters -/

/-- A blank within a line. -/
def isSpace (c : Char) : Bool := c = ' ' || c = '\t'

/-- Drops the blanks in front. -/
def skipSpaces (cs : List Char) : List Char := cs.dropWhile isSpace

/-- Whether the character may stand within a line. -/
def isPlain (c : Char) : Bool := c = '\t' || (0x20 ≤ c.toNat && c ≠ '\x7f')

/-- What follows the end of a line. -/
def lineBreak? : List Char → Option (List Char)
  | '\n' :: rest => some rest
  | '\r' :: '\n' :: rest => some rest
  | _ => none

/-- Drops blanks and ends of lines. -/
def skipLines : List Char → List Char
  | '\n' :: rest => skipLines rest
  | '\r' :: '\n' :: rest => skipLines rest
  | c :: rest => if isSpace c then skipLines rest else c :: rest
  | [] => []

/-! ### Escapes -/

/-- A character by its number in so many hexadecimal digits. -/
def numbered? (width : Nat) (cs : List Char) : Option (Char × List Char) := do
  let digits ← (cs.take width).mapM (Hex.digitValue? 16)
  let n := digits.foldl (fun n d => n * 16 + d) 0
  if digits.length = width ∧ n.isValidChar then some (Char.ofNat n, cs.drop width) else none

/-- The character of an escape, behind its backslash. -/
def escape? : List Char → Option (Char × List Char)
  | 'b' :: rest => some ('\x08', rest)
  | 't' :: rest => some ('\t', rest)
  | 'n' :: rest => some ('\n', rest)
  | 'f' :: rest => some ('\x0c', rest)
  | 'r' :: rest => some ('\r', rest)
  | '"' :: rest => some ('"', rest)
  | '\\' :: rest => some ('\\', rest)
  | 'u' :: rest => numbered? 4 rest
  | 'U' :: rest => numbered? 8 rest
  | _ => none

/-! ### Texts on one line -/

/-- Reads up to the double quote at the end. -/
def doubleQuoted? : (bound : Nat) → List Char → Option (List Char × List Char)
  | 0, _ => none
  | bound + 1, cs =>
    match cs with
    | [] => none
    | '"' :: rest => some ([], rest)
    | '\\' :: rest => do
      let (c, rest) ← escape? rest
      let (body, rest) ← doubleQuoted? bound rest
      some (c :: body, rest)
    | c :: rest =>
      if isPlain c then do
        let (body, rest) ← doubleQuoted? bound rest
        some (c :: body, rest)
      else none

/-- Reads up to the single quote at the end. -/
def singleQuoted? : List Char → Option (List Char × List Char)
  | [] => none
  | '\'' :: rest => some ([], rest)
  | c :: rest =>
    if isPlain c then do
      let (body, rest) ← singleQuoted? rest
      some (c :: body, rest)
    else none

/-- Reads a text on one line, from its opening quote on. -/
def line? : List Char → Option (List Char × List Char)
  | '"' :: rest => doubleQuoted? (rest.length + 1) rest
  | '\'' :: rest => singleQuoted? rest
  | _ => none

/-! ### Texts over several lines -/

/-- Drops a backslash at the end of a line, with the blanks and line ends behind it. -/
def joined? : List Char → Option (List Char)
  | '\\' :: rest => (lineBreak? (skipSpaces rest)).map skipLines
  | _ => none

/-- Reads up to three quotes. One or two quotes belong to the text, also in front of the three. -/
def threefold? (quote : Char) : (bound : Nat) → List Char → Option (List Char × List Char)
  | 0, _ => none
  | bound + 1, cs =>
    let quotes := (cs.takeWhile (· = quote)).length
    if 3 ≤ quotes then
      let more := min 2 (quotes - 3)
      some (List.replicate more quote, cs.drop (more + 3))
    else do
      let (front, rest) ←
        match cs with
        | [] => none
        | c :: rest =>
          match lineBreak? cs with
          | some rest => some (['\n'], rest)
          | none =>
            if quote = '"' ∧ c = '\\' then
              match joined? cs with
              | some rest => some ([], rest)
              | none => (escape? rest).map fun (c, rest) => ([c], rest)
            else if isPlain c then some ([c], rest)
            else none
      let (body, rest) ← threefold? quote bound rest
      some (front ++ body, rest)

/-- Reads a text over several lines, from its opening quotes on. A line end directly behind them
is dropped. -/
def lines? (cs : List Char) : Option (List Char × List Char) :=
  let body (quote : Char) (rest : List Char) :=
    threefold? quote (rest.length + 1) ((lineBreak? rest).getD rest)
  match cs with
  | '"' :: '"' :: '"' :: rest => body '"' rest
  | '\'' :: '\'' :: '\'' :: rest => body '\'' rest
  | _ => none

/-- Whether three quotes of one kind stand in front. -/
def opensLines : List Char → Bool
  | a :: b :: c :: _ => (a = '"' || a = '\'') && b = a && c = a
  | _ => false

/-- Reads a text, from its opening quotes on. -/
def text? (cs : List Char) : Option (List Char × List Char) :=
  if opensLines cs then lines? cs else line? cs

/-! ### Writing -/

/-- The character inside double quotes. -/
def escaped (c : Char) : List Char :=
  if c = '"' then ['\\', '"']
  else if c = '\\' then ['\\', '\\']
  else if isPlain c then [c]
  else ['\\', 'u', '0', '0', Hex.digit (c.toNat / 16), Hex.digit (c.toNat % 16)]

/-- The text in double quotes on one line. -/
def quote (s : String) : List Char := '"' :: s.toList.flatMap escaped ++ ['"']

end ExecutionNode.Toml
