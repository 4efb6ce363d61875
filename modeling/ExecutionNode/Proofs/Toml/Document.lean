import ExecutionNode.Proofs.Toml.Scalar

/-!
# Documents are read back

A document that was written is read as the statements of its sections.  Each line of it is one
statement, whatever follows (`Line`), and lines with empty ones between them are read one after
the other (`Lines`); so it is enough that names can stand without quotes and that the values can
be written (`Section.Plain`).
-/

namespace ExecutionNode.Toml

/-! ### Names and keys -/

/-- A name that can stand without quotes. -/
def IsName (name : String) : Prop := name.toList ≠ [] ∧ ∀ c ∈ name.toList, isBare c = true

instance (name : String) : Decidable (IsName name) :=
  decidable_of_iff (name.toList ≠ [] ∧ name.toList.all isBare = true)
    (by rw [IsName, List.all_eq_true])

/-- A character of a name is no blank and has no meaning of its own. -/
theorem isBare_spec {c : Char} (h : isBare c = true) :
    isSpace c = false ∧ c ≠ '[' ∧ c ≠ '#' ∧ c ≠ '\n' ∧ c ≠ '\r' ∧ c ≠ '"' ∧ c ≠ '\'' ∧
      c ≠ '\ufeff' := by
  refine ⟨?_, ?_, ?_, ?_, ?_, ?_, ?_, ?_⟩
  · by_contra hspace
    simp only [isSpace, Bool.not_eq_false, Bool.or_eq_true, decide_eq_true_eq] at hspace
    rcases hspace with rfl | rfl <;> exact absurd h (by decide)
  all_goals
    rintro rfl
    exact absurd h (by decide)

/-- What may follow a key: blanks, and no more of it behind them. -/
structure EndsKey (behind after : List Char) : Prop where
  /-- Nothing in front could continue a name. -/
  parted : ∀ c ∈ behind.head?, isBare c = false
  /-- Blanks are dropped. -/
  blanks : skipSpaces behind = after
  /-- No other name follows. -/
  last : ∀ rest, after ≠ '.' :: rest

theorem skipSpaces_name {name : String} (h : IsName name) (rest : List Char) :
    skipSpaces (name.toList ++ rest) = name.toList ++ rest := by
  obtain ⟨c, cs, hname⟩ := List.exists_cons_of_ne_nil h.1
  have hspace := (isBare_spec (h.2 c (hname ▸ List.mem_cons_self))).1
  rw [hname, skipSpaces, List.cons_append, List.dropWhile_cons_of_neg (by simp [hspace])]

/-- A name is taken up to what cannot continue it. -/
theorem name?_append {name : String} (h : IsName name) {rest : List Char}
    (hrest : ∀ c ∈ rest.head?, isBare c = false) :
    name? (name.toList ++ rest) = some (name, rest) := by
  obtain ⟨c, cs, hname⟩ := List.exists_cons_of_ne_nil h.1
  obtain ⟨-, -, -, -, -, hdouble, hsingle, -⟩ := isBare_spec (h.2 c (hname ▸ List.mem_cons_self))
  obtain ⟨htake, hdrop⟩ := span_append h.2 hrest
  have hbare : isBare c = true := h.2 c (hname ▸ List.mem_cons_self)
  rw [hname, List.cons_append] at htake hdrop ⊢
  rw [name?, if_neg (not_or.mpr ⟨hdouble, hsingle⟩), if_pos hbare, htake, hdrop, ← hname,
    String.ofList_toList]

/-- The names on the way to a table, each with a point behind it. -/
def way (path : List String) : List Char := path.flatMap fun name => name.toList ++ ['.']

/-- The names of a key are read one by one. -/
theorem names?_way {path : List String} {name : String} (hpath : ∀ name ∈ path, IsName name)
    (hname : IsName name) {behind after : List Char} (hends : EndsKey behind after) {bound : Nat}
    (hbound : path.length < bound) :
    names? bound (way path ++ (name.toList ++ behind)) = some (path ++ [name], after) := by
  obtain ⟨bound, rfl⟩ : ∃ b, bound = b + 1 := ⟨bound - 1, by omega⟩
  induction path generalizing bound with
  | nil =>
    rw [way, List.flatMap_nil, List.nil_append, names?, skipSpaces_name hname,
      name?_append hname hends.parted, Option.bind_eq_bind, Option.bind_some]
    dsimp only
    rw [hends.blanks]
    split
    next => exact absurd rfl (hends.last _)
    next => rfl
  | cons first path ih =>
    obtain ⟨bound, rfl⟩ : ∃ b, bound = b + 1 := ⟨bound - 1, by simp at hbound; omega⟩
    obtain ⟨hfirst, hpath⟩ := List.forall_mem_cons.mp hpath
    have hrest := ih hpath bound (by simpa using hbound)
    have htext : way (first :: path) ++ (name.toList ++ behind) =
        first.toList ++ '.' :: (way path ++ (name.toList ++ behind)) := by
      simp [way]
    have hpoint : ∀ rest, skipSpaces ('.' :: rest) = '.' :: rest := fun _ => rfl
    rw [htext, names?, skipSpaces_name hfirst, name?_append hfirst (by rintro _ ⟨⟩; decide),
      Option.bind_eq_bind, Option.bind_some]
    simp [hpoint, hrest]

/-- A key that can be written without quotes. -/
structure Key.Plain (key : Key) : Prop where
  /-- On the way. -/
  path : ∀ name ∈ key.path, IsName name
  /-- At its end. -/
  name : IsName key.name
  /-- It does not reach too deep. -/
  short : key.path.length + 1 < depthLimit

theorem length_le_length_way {path : List String} (hpath : ∀ name ∈ path, IsName name) :
    path.length ≤ (way path).length := by
  induction path with
  | nil => exact Nat.le_refl _
  | cons first path ih =>
    have hrest := ih (List.forall_mem_cons.mp hpath).2
    have htext : way (first :: path) = first.toList ++ '.' :: way path := by simp [way]
    simp only [htext, List.length_append, List.length_cons]
    omega

/-- The characters of a key. -/
def Key.chars (key : Key) : List Char := way key.path ++ key.name.toList

/-- A key begins with a character of a name. -/
theorem Key.Plain.exists_chars_eq {key : Key} (h : key.Plain) :
    ∃ c cs, key.chars = c :: cs ∧ isBare c = true := by
  have hname : ∀ {name : String}, IsName name → ∃ c cs, name.toList = c :: cs ∧ isBare c = true :=
    fun {name} h =>
      have ⟨c, cs, heq⟩ := List.exists_cons_of_ne_nil h.1
      ⟨c, cs, heq, h.2 c (heq ▸ List.mem_cons_self)⟩
  rw [chars, way]
  cases hpath : key.path with
  | nil => exact hname h.name
  | cons first path =>
    obtain ⟨c, cs, heq, hbare⟩ := hname (h.path first (hpath ▸ List.mem_cons_self))
    rw [List.flatMap_cons, heq]
    exact ⟨c, _, rfl, hbare⟩

/-- **A key is read back.** -/
theorem Key.Plain.key? {key : Key} (h : key.Plain) {behind after : List Char}
    (hends : EndsKey behind after) : Toml.key? (key.chars ++ behind) = some (key, after) := by
  have hlength := length_le_length_way h.path
  have hbound : key.path.length < (key.chars ++ behind).length + 1 := by
    simp only [Key.chars, List.length_append]
    omega
  have hnames := names?_way h.path h.name hends hbound
  rw [← List.append_assoc, ← Key.chars] at hnames
  rw [Toml.key?, hnames, Option.bind_eq_bind, Option.bind_some]
  dsimp only
  rw [List.getLast?_concat, Option.bind_eq_bind, Option.bind_some, List.length_append,
    List.length_singleton, if_pos h.short, List.dropLast_concat]

/-! ### Lines -/

/-- What is written on a line is read as a statement, whatever follows. -/
structure Line (line : List Char) (statement : Statement) : Prop where
  /-- It begins with a name or a bracket. -/
  start : ∃ c cs, line = c :: cs ∧ (isBare c = true ∨ c = '[')
  /-- It is read up to its end. -/
  reads : ∀ rest, statement? (line ++ '\n' :: rest) = some (statement, '\n' :: rest)

/-- The lines of a document, some of them empty, with their statements. -/
inductive Lines : List Char → List Statement → Prop where
  /-- The end. -/
  | done : Lines [] []
  /-- An empty line. -/
  | empty {text : List Char} {statements : List Statement} (h : Lines text statements) :
      Lines ('\n' :: text) statements
  /-- A line with a statement. -/
  | line {line text : List Char} {statement : Statement} {statements : List Statement}
      (first : Line line statement) (h : Lines text statements) :
      Lines (line ++ '\n' :: text) (statement :: statements)

/-- A line that begins with a name or a bracket is not empty. -/
theorem lineEnd?_eq_none {c : Char} (h : isBare c = true ∨ c = '[') (rest : List Char) :
    skipSpaces (c :: rest) = c :: rest ∧ lineEnd? (c :: rest) = none := by
  have hc : isSpace c = false ∧ c ≠ '#' ∧ c ≠ '\n' ∧ c ≠ '\r' := by
    rcases h with h | rfl
    · have hspec := isBare_spec h
      exact ⟨hspec.1, hspec.2.2.1, hspec.2.2.2.1, hspec.2.2.2.2.1⟩
    · decide
  obtain ⟨hspace, hcomment, hfeed, hreturn⟩ := hc
  have hskip : skipSpaces (c :: rest) = c :: rest := by
    rw [skipSpaces, List.dropWhile_cons_of_neg (by simp [hspace])]
  refine ⟨hskip, ?_⟩
  rw [lineEnd?, hskip]
  simp [hcomment, lineBreak?, hfeed, hreturn]

/-- **Lines are read one after the other.** -/
theorem Lines.statements? {text : List Char} {statements : List Statement}
    (h : Lines text statements) {bound : Nat} (hbound : text.length < bound) :
    Toml.statements? bound text = some statements := by
  obtain ⟨bound, rfl⟩ : ∃ b, bound = b + 1 := ⟨bound - 1, by omega⟩
  induction h generalizing bound with
  | done => rfl
  | @empty text _ _ ih =>
    obtain ⟨bound, rfl⟩ : ∃ b, bound = b + 1 := ⟨bound - 1, by simp at hbound; omega⟩
    have hskip : skipSpaces ('\n' :: text) = '\n' :: text := rfl
    have hend : lineEnd? ('\n' :: text) = some text := rfl
    rw [Toml.statements?, hskip]
    dsimp only
    rw [hend]
    exact ih bound (by simpa using hbound)
  | @line line text statement _ first _ ih =>
    obtain ⟨c, cs, hline, hstart⟩ := first.start
    obtain ⟨bound, rfl⟩ : ∃ b, bound = b + 1 := ⟨bound - 1, by simp at hbound; omega⟩
    obtain ⟨hskip, hnone⟩ := lineEnd?_eq_none hstart (cs ++ '\n' :: text)
    have hreads := first.reads text
    have hend : lineEnd? ('\n' :: text) = some text := rfl
    have hrest := ih bound (by simp at hbound; omega)
    rw [hline, List.cons_append] at hreads ⊢
    rw [Toml.statements?, hskip]
    dsimp only
    rw [hnone]
    dsimp only
    rw [hreads, Option.bind_eq_bind, Option.bind_some]
    dsimp only
    rw [hend, Option.bind_eq_bind, Option.bind_some, hrest]
    rfl

/-! ### Sections -/

/-- The line of a header is read back. -/
theorem Key.Plain.line_table {key : Key} (h : key.Plain) :
    Line ('[' :: (key.chars ++ [']'])) (.table key) := by
  refine ⟨⟨_, _, rfl, .inr rfl⟩, fun rest => ?_⟩
  have hends : EndsKey (']' :: '\n' :: rest) (']' :: '\n' :: rest) :=
    ⟨by rintro _ ⟨⟩; decide, rfl, fun _ heq => by cases heq⟩
  have hkey := h.key? hends
  obtain ⟨c, cs, hchars, hbare⟩ := h.exists_chars_eq
  have hbracket := (isBare_spec hbare).2.1
  rw [List.cons_append, List.append_assoc, List.singleton_append]
  rw [hchars, List.cons_append] at hkey ⊢
  rw [statement?, hkey, Option.bind_eq_bind, Option.bind_some]
  · rfl
  · exact fun _ heq => hbracket (List.head_eq_of_cons_eq heq)

/-- The line of a key with its value is read back. -/
theorem Key.Plain.line_assignment {key : Key} (h : key.Plain) {value : Scalar}
    (hfits : value.Fits) :
    Line (key.chars ++ (" = ".toList ++ value.write)) (.assignment key value.value) := by
  obtain ⟨c, cs, hchars, hbare⟩ := h.exists_chars_eq
  obtain ⟨v, vs, hwrite, hmarks⟩ := value.exists_write_eq
  have hbracket := (isBare_spec hbare).2.1
  refine ⟨⟨c, _, by rw [hchars]; rfl, .inl hbare⟩, fun rest => ?_⟩
  have hends : EndsKey (' ' :: '=' :: ' ' :: (value.write ++ '\n' :: rest))
      ('=' :: ' ' :: (value.write ++ '\n' :: rest)) :=
    ⟨by rintro _ ⟨⟩; decide, rfl, fun _ heq => by cases heq⟩
  have hkey := h.key? hends
  have htext : key.chars ++ (" = ".toList ++ value.write) ++ '\n' :: rest =
      key.chars ++ ' ' :: '=' :: ' ' :: (value.write ++ '\n' :: rest) := by
    simp
  have hmark : ∀ rest, mark? '=' ('=' :: rest) = some rest := fun _ => rfl
  have hskip : skipSpaces (' ' :: (value.write ++ '\n' :: rest)) =
      value.write ++ '\n' :: rest := by
    simp only [List.mem_cons, not_or] at hmarks
    have hspace : isSpace v = false := by simp [isSpace, hmarks]
    rw [skipSpaces, List.dropWhile_cons_of_pos (by decide), hwrite, List.cons_append,
      List.dropWhile_cons_of_neg (by simp [hspace])]
  rw [htext]
  rw [hchars, List.cons_append] at hkey ⊢
  rw [statement?, hkey, Option.bind_eq_bind, Option.bind_some]
  · dsimp only
    rw [hmark, Option.bind_eq_bind, Option.bind_some, hskip, Scalar.readValue?_write hfits]
    rfl
  · exact fun _ heq => hbracket (List.head_eq_of_cons_eq heq)
  · exact fun _ heq => hbracket (List.head_eq_of_cons_eq heq)

/-- Lines do not begin with a byte order mark. -/
theorem Lines.ne_mark {text : List Char} {statements : List Statement} (h : Lines text statements)
    (rest : List Char) : text ≠ '\ufeff' :: rest := by
  cases h with
  | done => nofun
  | empty h => exact fun heq => absurd (List.head_eq_of_cons_eq heq) (by decide)
  | line first h =>
    obtain ⟨c, cs, hline, hstart⟩ := first.start
    rw [hline, List.cons_append]
    intro heq
    rw [List.head_eq_of_cons_eq heq] at hstart
    exact absurd hstart (by decide)

/-! ### Sections -/

/-- A section that can be written. -/
structure Section.Plain (s : Section) : Prop where
  /-- The header needs no quotes. -/
  header : s.header.Plain
  /-- The names need none, and the values can be written. -/
  entries : ∀ entry ∈ s.entries, IsName entry.1 ∧ entry.2.Fits

/-- A name alone is a key. -/
theorem IsName.plain {name : String} (h : IsName name) : (⟨[], name⟩ : Key).Plain :=
  ⟨nofun, h, show 0 + 1 < depthLimit by decide⟩

/-- The lines of a section are its statements, in front of those of what follows. -/
theorem Section.Plain.lines {s : Section} (h : s.Plain) {text : List Char}
    {statements : List Statement} (hrest : Lines text statements) :
    Lines (s.write ++ text) (s.statements ++ statements) := by
  have hentries : ∀ entries : List (String × Scalar),
      (∀ entry ∈ entries, IsName entry.1 ∧ entry.2.Fits) →
      Lines (entries.flatMap Section.writeEntry ++ text)
        (entries.map (fun entry => .assignment ⟨[], entry.1⟩ entry.2.value) ++ statements) := by
    intro entries
    induction entries with
    | nil => exact fun _ => hrest
    | cons entry entries ih =>
      intro h
      obtain ⟨⟨hname, hfits⟩, h⟩ := List.forall_mem_cons.mp h
      have hline := Lines.line (hname.plain.line_assignment hfits) (ih h)
      simpa [Section.writeEntry, Key.chars, way] using hline
  have hline := Lines.line h.header.line_table (hentries s.entries h.entries)
  have htext : s.write ++ text = '[' :: (s.header.chars ++ [']']) ++
      '\n' :: (s.entries.flatMap Section.writeEntry ++ text) := by
    simp [Section.write, Section.writeHeader, Key.chars, way]
  rw [htext]
  exact hline

/-- Sections with empty lines between them are lines. -/
theorem lines_intercalate {sections : List Section} (h : ∀ s ∈ sections, s.Plain) :
    Lines (['\n'].intercalate (sections.map Section.write))
      (sections.flatMap Section.statements) := by
  induction sections with
  | nil => exact .done
  | cons s sections ih =>
    obtain ⟨hs, h⟩ := List.forall_mem_cons.mp h
    cases sections with
    | nil => simpa using hs.lines .done
    | cons next sections => exact hs.lines (.empty (ih h))

/-- **A document is read back.** What it describes is what its statements describe. -/
theorem parse?_write {sections : List Section} (h : ∀ s ∈ sections, s.Plain) :
    parse? (write sections) = ofStatements? (sections.flatMap Section.statements) := by
  have hlines := lines_intercalate h
  rw [parse?, write, String.toList_ofList]
  split
  next heq => exact absurd heq (hlines.ne_mark _)
  next => rw [hlines.statements? (Nat.lt_succ_self _), Option.bind_eq_bind, Option.bind_some]

end ExecutionNode.Toml
