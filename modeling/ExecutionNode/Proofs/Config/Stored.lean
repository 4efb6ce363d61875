import ExecutionNode.Config.Toml
import ExecutionNode.Proofs.Duration.Words
import ExecutionNode.Proofs.Toml.Document

/-!
# Stored settings come back

Settings can be saved if their numbers have 63 bits at most (`save_eq_ok_iff`).  The file has a
table for each group of them, and the table of a trusted block, which belongs to the one of the
synchronization, stands behind it (`ofStatements?_tables`).  What is read from the file are the
settings that were saved (`ofToml?_of_save`); so loading succeeds exactly if they can be used
together.
-/

namespace ExecutionNode.Config

/-! ### What is written -/

/-- The numbers of the settings. -/
def numbers (c : Config) : List UInt64 :=
  [c.sync.pivotDistance, c.sync.minPeersForPivot] ++ c.sync.maxTrailingPeers.toList
    ++ [c.sync.tolerance] ++ (c.sync.checkpoint.map Checkpoint.number).toList
    ++ [c.engine.maxExtraData]

/-- Settings that can be written: their numbers have 63 bits at most. -/
def Writable (c : Config) : Prop := ∀ n ∈ c.numbers, n.toNat < Toml.integerCount

instance (c : Config) : Decidable c.Writable :=
  decidable_of_iff (c.numbers.all (·.toNat < Toml.integerCount) = true) (by simp [Writable])

/-- A number under its name. -/
def entry (name : String) (n : UInt64) : String × Toml.Scalar := (name, .natural n.toNat)

/-- The table of a trusted block. -/
def checkpointTable (trusted : Checkpoint) : Toml.Section where
  header := ⟨["sync"], "checkpoint"⟩
  entries := [entry "number" trusted.number, ("hash", .text trusted.hash.text)]

/-- The tables of the settings. -/
def tables (c : Config) : List Toml.Section :=
  { header := ⟨[], "sync"⟩
    entries :=
      [("sync_mode", .text c.sync.mode.name), entry "pivot_distance" c.sync.pivotDistance,
        entry "min_peers_for_pivot" c.sync.minPeersForPivot,
        ("pivot_selection_timeout", .text c.sync.pivotTimeout.words)]
      ++ c.sync.maxTrailingPeers.toList.map (entry "max_trailing_peers")
      ++ [entry "in_sync_tolerance" c.sync.tolerance] }
  :: c.sync.checkpoint.toList.map checkpointTable
  ++ [{ header := ⟨[], "engine"⟩, entries := [entry "max_extra_data_size" c.engine.maxExtraData] }]

theorem wholeNumber?_of_lt {n : UInt64} (h : n.toNat < Toml.integerCount) (name : String) :
    wholeNumber? name n = some (entry name n) := if_pos h

theorem lt_of_wholeNumber? {name : String} {n : UInt64} {written : String × Toml.Scalar}
    (h : wholeNumber? name n = some written) : n.toNat < Toml.integerCount := by
  by_contra hlarge
  rw [wholeNumber?, if_neg hlarge] at h
  cases h

/-- What can be written is written as these tables. -/
theorem sections?_of_writable {c : Config} (h : c.Writable) : c.sections? = some c.tables := by
  obtain ⟨⟨mode, distance, minPeers, timeout, maxTrailing, tolerance, checkpoint⟩, maxExtra⟩ := c
  cases maxTrailing <;> cases checkpoint <;>
    simp_all [Writable, numbers, sections?, tables, wholeNumber?_of_lt, checkpointTable]

/-- Settings of which any tables are written can be written. -/
theorem writable_of_sections? {c : Config} {sections : List Toml.Section}
    (h : c.sections? = some sections) : c.Writable := by
  simp only [sections?, Option.bind_eq_bind, Option.bind_eq_some_iff] at h
  obtain ⟨_, hdistance, _, hminPeers, _, hmaxTrailing, _, htolerance, _, hcheckpoint, _,
    hmaxExtra, -⟩ := h
  have htrailing : ∀ n ∈ c.sync.maxTrailingPeers.toList, n.toNat < Toml.integerCount := by
    cases hmax : c.sync.maxTrailingPeers with
    | none => nofun
    | some n =>
      simp only [hmax, Option.toList_some, List.mapM_cons, Option.bind_eq_bind,
        Option.bind_eq_some_iff] at hmaxTrailing
      obtain ⟨_, hn, -⟩ := hmaxTrailing
      exact List.forall_mem_singleton.mpr (lt_of_wholeNumber? hn)
  have hnumber : ∀ n ∈ (c.sync.checkpoint.map Checkpoint.number).toList,
      n.toNat < Toml.integerCount := by
    cases htrusted : c.sync.checkpoint with
    | none => nofun
    | some trusted =>
      simp only [htrusted, Option.toList_some, List.mapM_cons, Option.bind_eq_bind,
        Option.bind_eq_some_iff] at hcheckpoint
      obtain ⟨_, ⟨_, hn, -⟩, -⟩ := hcheckpoint
      exact List.forall_mem_singleton.mpr (lt_of_wholeNumber? hn)
  simp only [Writable, numbers, List.forall_mem_append, List.forall_mem_cons]
  exact ⟨⟨⟨⟨⟨lt_of_wholeNumber? hdistance, lt_of_wholeNumber? hminPeers, nofun⟩, htrailing⟩,
    lt_of_wholeNumber? htolerance, nofun⟩, hnumber⟩, lt_of_wholeNumber? hmaxExtra, nofun⟩

/-- **Settings are saved** exactly if their numbers have 63 bits at most. -/
theorem save_eq_ok_iff {c : Config} {text : String} :
    c.save = .ok text ↔ c.Writable ∧ text = Toml.write c.tables := by
  have hsave : c.save = .ok text ↔ c.sections?.map Toml.write = some text := by
    rw [save, toToml?]
    cases c.sections?.map Toml.write <;> simp
  rw [hsave]
  constructor
  · intro h
    obtain ⟨sections, hsections, rfl⟩ := Option.map_eq_some_iff.mp h
    have hwritable := writable_of_sections? hsections
    rw [sections?_of_writable hwritable] at hsections
    cases hsections
    exact ⟨hwritable, rfl⟩
  · rintro ⟨hwritable, rfl⟩
    rw [sections?_of_writable hwritable, Option.map_some]

/-! ### What is described -/

/-- An entry with a number can be written if the number can. -/
theorem plain_entry {name : String} (hname : Toml.IsName name) {n : UInt64}
    (h : n.toNat < Toml.integerCount) :
    Toml.IsName (entry name n).1 ∧ (entry name n).2.Fits := ⟨hname, h⟩

/-- The tables can be written. -/
theorem plain_of_mem_tables {c : Config} (h : c.Writable) : ∀ s ∈ c.tables, s.Plain := by
  simp only [Writable, numbers, List.forall_mem_append, List.forall_mem_cons] at h
  obtain ⟨⟨⟨⟨⟨hdistance, hminPeers, -⟩, hmaxTrailing⟩, htolerance, -⟩, hnumber⟩, hmaxExtra, -⟩ := h
  rw [tables, List.cons_append, List.forall_mem_cons, List.forall_mem_append,
    List.forall_mem_singleton]
  refine ⟨⟨Toml.IsName.plain (by decide), ?_⟩, ?_, ⟨Toml.IsName.plain (by decide), ?_⟩⟩
  · simp only [List.forall_mem_append, List.forall_mem_cons, List.forall_mem_map]
    exact ⟨⟨⟨⟨by decide, trivial⟩, plain_entry (by decide) hdistance,
        plain_entry (by decide) hminPeers, ⟨by decide, trivial⟩, nofun⟩,
      fun n hn => plain_entry (by decide) (hmaxTrailing n hn)⟩,
      plain_entry (by decide) htolerance, nofun⟩
  · rw [List.forall_mem_map]
    intro trusted htrusted
    have hn : trusted.number.toNat < Toml.integerCount :=
      hnumber _ (by rw [Option.mem_toList] at htrusted ⊢; exact Option.mem_map_of_mem _ htrusted)
    have hheader : (checkpointTable trusted).header.Plain :=
      ⟨List.forall_mem_singleton.mpr (by decide), show Toml.IsName "checkpoint" by decide,
        show 1 + 1 < Toml.depthLimit by decide⟩
    refine ⟨hheader, ?_⟩
    simp only [checkpointTable, List.forall_mem_cons]
    exact ⟨plain_entry (by decide) hn, ⟨by decide, trivial⟩, nofun⟩
  · exact List.forall_mem_singleton.mpr (plain_entry (by decide) hmaxExtra)

/-- The value of a number. -/
def value (n : UInt64) : Toml := .integer n.toNat

/-- The fields of the table of a trusted block. -/
def checkpointFields (trusted : Checkpoint) : Toml.Fields :=
  [("number", value trusted.number), ("hash", .text trusted.hash.text)]

/-- The fields of the table of the synchronization. -/
def syncFields (s : SyncConfig) : Toml.Fields :=
  [("sync_mode", .text s.mode.name), ("pivot_distance", value s.pivotDistance),
    ("min_peers_for_pivot", value s.minPeersForPivot),
    ("pivot_selection_timeout", .text s.pivotTimeout.words)]
  ++ s.maxTrailingPeers.toList.map (fun n => ("max_trailing_peers", value n))
  ++ [("in_sync_tolerance", value s.tolerance)]
  ++ s.checkpoint.toList.map fun trusted =>
    ("checkpoint", .table .header (checkpointFields trusted))

/-- The fields of the table of the engine. -/
def engineFields (e : EngineConfig) : Toml.Fields := [("max_extra_data_size", value e.maxExtraData)]

/-- The table of the whole file. -/
def document (c : Config) : Toml :=
  .table .header
    [("sync", .table .header (syncFields c.sync)),
      ("engine", .table .header (engineFields c.engine))]

/-- The table of a trusted block, which stands behind the one of the synchronization, belongs to
it. -/
theorem ofStatements?_tables (c : Config) :
    Toml.ofStatements? (c.tables.flatMap Toml.Section.statements) = some c.document := by
  obtain ⟨⟨mode, distance, minPeers, timeout, maxTrailing, tolerance, checkpoint⟩, maxExtra⟩ := c
  cases maxTrailing <;> cases checkpoint <;> rfl

/-! ### What is read -/

theorem uint64?_value (n : UInt64) : Toml.uint64? (value n) = some n := by
  rw [value, Toml.uint64?, Int.toNat_natCast, if_pos ⟨Int.natCast_nonneg _, n.toNat_lt⟩,
    UInt64.ofNat_toNat]

theorem mode?_name (mode : SyncMode) : toml.mode? (.text mode.name) = some mode := by
  cases mode <;> rfl

theorem duration?_words (d : Duration) : toml.duration? (.text d.words) = some d := by
  have htext : toml.text? (.text d.words) = some d.words := rfl
  rw [Format.duration?, htext, Option.bind_eq_bind, Option.bind_some, d.ofWords?_words]

theorem fixed?_text (hash : Hash) : Toml.fixed? 32 (.text hash.text) = some hash := by
  rw [Toml.fixed?, Hex.fixed?, FixedBytes.text, Hex.bytes?_text]
  exact FixedBytes.ofList?_toList hash

/-- No value stands for the absence of one. -/
theorem nullable?_of_eq_some {α : Type} {read? : Toml → Option α} {v : Toml} {a : α}
    (h : read? v = some a) : toml.nullable? read? v = some (some a) :=
  congrArg (Option.map some) h

/-- A table is a record of its fields. -/
theorem record?_table (names : List String) (origin : Toml.Origin) (fields : Toml.Fields) :
    toml.record? names (.table origin fields) = some (.ofFields fields) := rfl

/-- A trusted block is read back. -/
theorem checkpoint?_checkpointFields (trusted : Checkpoint) (origin : Toml.Origin) :
    toml.checkpoint? (.table origin (checkpointFields trusted)) = some trusted := by
  simp [Format.checkpoint?, toml, Toml.record?, Record.required, Record.ofFields,
    checkpointFields, uint64?_value, fixed?_text]

section

variable {α V : Type} {r : Record V} {name : String}

/-- A field that is given is read. -/
theorem orElse_given {v : V} (h : r.slot name = .given v) (read? : V → Option α) (absent : α) :
    r.orElse name read? absent = read? v := by rw [Record.orElse, h]

/-- A field that is written only if there is something to write is read back. -/
theorem orElse_option {read? : V → Option (Option α)} {write : α → V}
    (hread : ∀ a, read? (write a) = some (some a)) {a : Option α}
    (h : r.slot name = (a.map fun a => Slot.given (write a)).getD .unnamed) :
    r.orElse name read? none = some a := by
  cases a with
  | none => rw [Record.orElse, h]; rfl
  | some a => exact (orElse_given h read? none).trans (hread a)

end

section

variable (s : SyncConfig)

/-- The record of the settings of the synchronization. -/
def syncRecord : Record Toml := .ofFields (syncFields s)

/-- The bound on peers is found in the record if it is written. -/
theorem slot_maxTrailingPeers : (syncRecord s).slot "max_trailing_peers" =
    (s.maxTrailingPeers.map fun n => Slot.given (value n)).getD .unnamed := by
  unfold syncRecord syncFields
  cases s.maxTrailingPeers <;> cases s.checkpoint <;> rfl

/-- The tolerance is found whether a bound on peers is written in front of it or not. -/
theorem slot_tolerance :
    (syncRecord s).slot "in_sync_tolerance" = .given (value s.tolerance) := by
  unfold syncRecord syncFields
  cases s.maxTrailingPeers <;> rfl

/-- The trusted block is found if it is written, though it stands at the end. -/
theorem slot_checkpoint : (syncRecord s).slot "checkpoint" =
    (s.checkpoint.map fun trusted =>
      Slot.given (.table .header (checkpointFields trusted))).getD .unnamed := by
  unfold syncRecord syncFields
  cases s.maxTrailingPeers <;> cases s.checkpoint <;> rfl

end

/-- The settings of the synchronization are read back. -/
theorem sync?_syncFields (s : SyncConfig) (origin : Toml.Origin) :
    toml.sync? (.table origin (syncFields s)) = some s := by
  have hnumber {name : String} {n : UInt64} (hslot : (syncRecord s).slot name = .given (value n))
      (absent : UInt64) : (syncRecord s).orElse name toml.uint64? absent = some n :=
    (orElse_given hslot _ absent).trans (uint64?_value n)
  have hmode (absent : SyncMode) :
      (syncRecord s).orElse "sync_mode" toml.mode? absent = some s.mode :=
    (orElse_given rfl _ absent).trans (mode?_name s.mode)
  have hdistance (absent : UInt64) :
      (syncRecord s).orElse "pivot_distance" toml.uint64? absent = some s.pivotDistance :=
    hnumber rfl absent
  have hminPeers (absent : UInt64) :
      (syncRecord s).orElse "min_peers_for_pivot" toml.uint64? absent = some s.minPeersForPivot :=
    hnumber rfl absent
  have htimeout (absent : Duration) :
      (syncRecord s).orElse "pivot_selection_timeout" toml.duration? absent =
        some s.pivotTimeout :=
    (orElse_given rfl _ absent).trans (duration?_words s.pivotTimeout)
  have hmaxTrailing : (syncRecord s).orElse "max_trailing_peers" (toml.nullable? toml.uint64?) none
      = some s.maxTrailingPeers :=
    orElse_option (fun n => nullable?_of_eq_some (uint64?_value n)) (slot_maxTrailingPeers s)
  have htolerance := hnumber (slot_tolerance s)
  have hcheckpoint : (syncRecord s).orElse "checkpoint" (toml.nullable? toml.checkpoint?) none =
      some s.checkpoint :=
    orElse_option (fun trusted => nullable?_of_eq_some
      (checkpoint?_checkpointFields trusted .header)) (slot_checkpoint s)
  have hrecord : toml.record? Format.syncNames (.table origin (syncFields s)) =
      some (syncRecord s) := record?_table _ origin _
  simp only [Format.sync?, hrecord, hmode, hdistance, hminPeers, htimeout,
    hmaxTrailing, htolerance, hcheckpoint, Option.bind_eq_bind, Option.bind_some]

/-- The settings of the engine are read back. -/
theorem engine?_engineFields (e : EngineConfig) (origin : Toml.Origin) :
    toml.engine? (.table origin (engineFields e)) = some e := by
  have hnumber : toml.uint64? (value e.maxExtraData) = some e.maxExtraData := uint64?_value _
  rw [Format.engine?, record?_table, Option.bind_eq_bind, Option.bind_some, orElse_given rfl,
    hnumber]
  rfl

/-- The settings are read back. -/
theorem config?_document (c : Config) : toml.config? c.document = some c := by
  rw [Format.config?, document, record?_table, Option.bind_eq_bind, Option.bind_some,
    orElse_given rfl, sync?_syncFields, Option.bind_eq_bind, Option.bind_some, orElse_given rfl,
    engine?_engineFields]
  rfl

/-! ### Files -/

/-- The file of saved settings is read as these settings. -/
theorem ofToml?_of_save {c : Config} {text : String} (hsave : c.save = .ok text) :
    ofToml? text = some c := by
  obtain ⟨hwritable, rfl⟩ := save_eq_ok_iff.mp hsave
  rw [ofToml?, Toml.parse?_write (plain_of_mem_tables hwritable), ofStatements?_tables]
  exact c.config?_document

/-- **Stored settings come back unchanged** if they can be used together, and are refused for the
same reason if they cannot. -/
theorem load_of_save {c : Config} {text : String} (hsave : c.save = .ok text) :
    (c.problem? = none → load text = .ok c) ∧
      ∀ problem, c.problem? = some problem → load text = .error (.invalid problem) := by
  have hload : load text = c.check := by rw [load, ofToml?_of_save hsave]
  rw [hload, check]
  constructor
  · intro hnone
    rw [hnone]
  · intro problem hproblem
    rw [hproblem]

/-- Settings with a trusted block, a bound on peers and a part of a second. -/
def trusting : Config where
  sync :=
    { mode := .checkpoint
      pivotTimeout := .milliseconds 61500
      maxTrailingPeers := some 3
      checkpoint := some ⟨17034870, ⟨List.replicate 32 0xab, rfl⟩⟩ }

/-- Settings with which no peer has to agree. -/
def peerless : Config := { trusting with sync := { trusting.sync with minPeersForPivot := 0 } }

/-- The first of them come back, and the second are refused. -/
theorem load_of_save_trusting :
    ∃ stored refused,
      trusting.save = .ok stored ∧ load stored = .ok trusting ∧
      peerless.save = .ok refused ∧ load refused = .error (.invalid .noPeers) := by
  have htrusting : trusting.save = .ok _ := save_eq_ok_iff.mpr ⟨by decide, rfl⟩
  have hpeerless : peerless.save = .ok _ := save_eq_ok_iff.mpr ⟨by decide, rfl⟩
  exact ⟨_, _, htrusting, (load_of_save htrusting).1 (by decide),
    hpeerless, (load_of_save hpeerless).2 _ (by decide)⟩

end ExecutionNode.Config
