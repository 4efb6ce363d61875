import ExecutionNode.Forkchoice
import ExecutionNode.Header.Json
import ExecutionNode.Proofs.Json.Printed

/-!
# Values survive the wire

A value of the engine interface that is written as a JSON text is read from the text again.  Two
things are needed of what is written: all of it is asked for by the shape under which it is read
(`legible_toJson`), and the decoder reads it back field by field (`ofJson?_toJson`).

A field is found by its name, so the fields of a record only have to have different names
(`Json.recordOf?_obj`).  A field that is left out where there is nothing to tell is one that the
decoder has a value for.
-/

namespace ExecutionNode

open Json (Legible Shape)

/-! ### Fields -/

/-- An object whose fields have different names is read as a record of them. -/
theorem Json.recordOf?_obj {names written : List String} {fields : List (String × Json)}
    (hwritten : fields.map (·.1) = written) (hnodup : written.Nodup) :
    recordOf? names (.obj fields) = some (.ofFields fields) := by
  have hdistinct : distinctFields names fields = true := by
    rw [distinctFields, List.all_eq_true]
    intro name _
    have hcount := List.nodup_iff_count.mp (hwritten ▸ hnodup) name
    rw [List.count, List.countP_map, List.countP_eq_length_filter] at hcount
    exact decide_eq_true hcount
  rw [recordOf?, hdistinct]
  rfl

/-- A reading goes on with what a field was read as. -/
theorem reading_next {α β : Type} {field : Option α} {rest : α → Option β} {a : α} {b : β}
    (hfield : field = some a) (hrest : rest a = some b) : (field >>= rest) = some b := by
  rw [hfield]
  exact hrest

/-- All the fields of an object are asked for if the first one and the others are. -/
theorem legible_next {depth : Nat} {shape : Shape} {field : String × Json}
    {fields : List (String × Json)} (hfirst : Legible depth (shape.field field.1) field.2)
    (hrest : ∀ other ∈ fields, Legible depth (shape.field other.1) other.2) :
    ∀ other ∈ field :: fields, Legible depth (shape.field other.1) other.2 :=
  List.forall_mem_cons.mpr ⟨hfirst, hrest⟩

/-- There is nothing left of an object. -/
theorem legible_end {depth : Nat} {shape : Shape} :
    ∀ other ∈ ([] : List (String × Json)), Legible depth (shape.field other.1) other.2 := nofun

section scalars

variable {depth : Nat} {shape : Shape}

theorem legible_ofUInt64 (kept : shape.isSkipped = false) (n : UInt64) :
    Legible depth shape (.ofUInt64 n) := .word kept n.toNat_lt

theorem legible_ofOption {α : Type} (kept : shape.isSkipped = false) {write : α → Json}
    (h : ∀ a, Legible depth shape (write a)) (a : Option α) :
    Legible depth shape (.ofOption write a) := by
  cases a with
  | none => exact .null kept
  | some a => exact h a

/-- An array is asked for if it is read for an array of parts that are. -/
theorem legible_list {α : Type} {write : α → Json} (h : ∀ a, Legible depth shape (write a))
    (l : List α) : Legible (depth + 1) (.list shape) (.arr (l.map write)) := by
  refine .arr rfl nofun fun i item hitem => ?_
  obtain ⟨a, -, rfl⟩ := List.mem_map.mp (List.mem_of_getElem? hitem)
  exact h a

/-- An array that is read for a value of any kind is asked for if its parts are. -/
theorem legible_whole {α : Type} {write : α → Json} (h : ∀ a, Legible depth .whole (write a))
    (l : List α) : Legible (depth + 1) .whole (.arr (l.map write)) := by
  refine .arr rfl nofun fun i item hitem => ?_
  obtain ⟨a, -, rfl⟩ := List.mem_map.mp (List.mem_of_getElem? hitem)
  exact h a

end scalars

/-! ### The values of the engine interface -/

variable {depth : Nat}

namespace Withdrawal

theorem ofJson?_toJson (w : Withdrawal) : ofJson? w.toJson = some w := by
  refine reading_next (Json.recordOf?_obj rfl (by decide : shape.names.Nodup)) ?_
  iterate 2 apply reading_next (Json.wideUInt64?_ofQuantity _)
  apply reading_next (Json.fixed?_ofFixed _)
  apply reading_next (Json.wideUInt64?_ofQuantity _)
  rfl

theorem legible_toJson (w : Withdrawal) : Legible (depth + 1) shape w.toJson := by
  apply Legible.obj rfl
  iterate 4 apply legible_next (.str rfl)
  exact legible_end

end Withdrawal

namespace PayloadAttributes

theorem ofJson?_toJson (a : PayloadAttributes) : ofJson? a.toJson = some a := by
  obtain ⟨timestamp, prevRandao, suggestedFeeRecipient, withdrawals⟩ := a
  cases withdrawals with
  | none =>
    refine reading_next (Json.recordOf?_obj rfl (by decide : (shape.names.take 3).Nodup)) ?_
    apply reading_next (Json.wideUInt64?_ofQuantity _)
    iterate 2 apply reading_next (Json.fixed?_ofFixed _)
    rfl
  | some ws =>
    refine reading_next (Json.recordOf?_obj rfl (by decide : shape.names.Nodup)) ?_
    apply reading_next (Json.wideUInt64?_ofQuantity _)
    iterate 2 apply reading_next (Json.fixed?_ofFixed _)
    apply reading_next (congrArg (Option.map some) (Json.list?_arr Withdrawal.ofJson?_toJson ws))
    rfl

theorem legible_toJson (a : PayloadAttributes) : Legible (depth + 3) shape a.toJson := by
  apply Legible.obj rfl
  iterate 3 apply legible_next (.str rfl)
  cases a.withdrawals with
  | none => exact legible_end
  | some ws => exact legible_next (legible_list Withdrawal.legible_toJson ws) legible_end

end PayloadAttributes

namespace Payload

theorem ofJson?_toJson (p : Payload) : ofJson? p.toJson = some p := by
  have hnames : ∃ n, p.jsonFields.map (·.1) = shape.names.take n := by
    cases h : p.withdrawals with
    | none => exact ⟨14, by rw [jsonFields, h]; rfl⟩
    | some ws => exact ⟨15, by rw [jsonFields, h]; rfl⟩
  have hwithdrawals : (Record.ofFields p.jsonFields).nullable "withdrawals"
      (Json.list? Withdrawal.ofJson?) = some p.withdrawals := by
    cases h : p.withdrawals with
    | none => rw [jsonFields, h]; rfl
    | some ws =>
      rw [jsonFields, h]
      exact congrArg (Option.map some) (Json.list?_arr Withdrawal.ofJson?_toJson ws)
  obtain ⟨n, hnames⟩ := hnames
  have hnodup : shape.names.Nodup := by decide
  refine reading_next (Json.recordOf?_obj hnames (hnodup.sublist (List.take_sublist n _))) ?_
  iterate 6 apply reading_next (Json.fixed?_ofFixed _)
  iterate 4 apply reading_next (Json.quantity?_ofQuantity _)
  apply reading_next (Json.nullable?_ofOption nofun Json.bytes?_ofBytes _)
  apply reading_next (Json.uint256?_ofUInt256 _)
  apply reading_next (Json.fixed?_ofFixed _)
  apply reading_next (Json.list?_arr Json.bytes?_ofBytes _)
  apply reading_next hwithdrawals
  rfl

theorem legible_toJson (p : Payload) : Legible (depth + 3) shape p.toJson := by
  apply Legible.obj rfl
  iterate 10 apply legible_next (.str rfl)
  apply legible_next (legible_ofOption rfl (fun _ => .str rfl) _)
  iterate 2 apply legible_next (.str rfl)
  apply legible_next (legible_whole (fun _ => .str rfl) _)
  cases p.withdrawals with
  | none => exact legible_end
  | some ws => exact legible_next (legible_list Withdrawal.legible_toJson ws) legible_end

end Payload

namespace PayloadEnvelope

theorem ofJson?_toJson (e : PayloadEnvelope) : ofJson? e.toJson = some e := by
  refine reading_next (Json.recordOf?_obj rfl (by decide : shape.names.Nodup)) ?_
  apply reading_next (Payload.ofJson?_toJson _)
  apply reading_next (Json.uint256?_ofUInt256 _)
  rfl

theorem legible_toJson (e : PayloadEnvelope) : Legible (depth + 4) shape e.toJson := by
  apply Legible.obj rfl
  apply legible_next (Payload.legible_toJson _)
  apply legible_next (.str rfl)
  exact legible_end

end PayloadEnvelope

namespace PayloadStatus

/-- No field of a status is written twice. -/
theorem nodup_jsonFields (s : PayloadStatus) : (s.jsonFields.map (·.1)).Nodup := by
  obtain ⟨verdict, latestValidHash⟩ := s
  rcases verdict with _ | (_ | error) | _ | _ | _ <;> cases latestValidHash <;>
    simp [jsonFields, Verdict.error?]

/-- The latest valid hash is left out exactly if there is none. -/
theorem read_latestValidHash (s : PayloadStatus) :
    (Record.ofFields s.jsonFields).nullable "latestValidHash" (Json.fixed? 32) =
      some s.latestValidHash := by
  obtain ⟨verdict, latestValidHash⟩ := s
  cases latestValidHash with
  | none => rcases verdict with _ | (_ | error) | _ | _ | _ <;> rfl
  | some hash =>
    have hread := congrArg (Option.map some) (Json.fixed?_ofFixed hash)
    rcases verdict with _ | (_ | error) | _ | _ | _ <;> exact hread

/-- The error text is left out exactly if there is none. -/
theorem read_validationError (s : PayloadStatus) :
    (Record.ofFields s.jsonFields).nullable "validationError" Json.string? =
      some s.verdict.error? := by
  obtain ⟨verdict, latestValidHash⟩ := s
  rcases verdict with _ | (_ | error) | _ | _ | _ <;> cases latestValidHash <;> rfl

theorem ofJson?_toJson (s : PayloadStatus) : ofJson? s.toJson = some s := by
  have hnodup := s.nodup_jsonFields
  have hlatest := s.read_latestValidHash
  have herror := s.read_validationError
  obtain ⟨verdict, latestValidHash⟩ := s
  refine reading_next (Json.recordOf?_obj rfl hnodup) ?_
  apply reading_next hlatest
  cases verdict with
  | invalid error =>
    refine reading_next (show _ = some (Verdict.invalid none) from rfl) ?_
    refine reading_next (Json.recordOf?_obj rfl hnodup) ?_
    apply reading_next herror
    rfl
  | _ => exact reading_next rfl rfl

theorem legible_toJson (s : PayloadStatus) : Legible (depth + 1) shape s.toJson := by
  apply Legible.obj rfl
  refine legible_next (.str rfl) (List.forall_mem_append.mpr ⟨?_, ?_⟩)
  · cases s.verdict.error? with
    | none => exact legible_end
    | some error => exact legible_next (.str rfl) legible_end
  · cases s.latestValidHash with
    | none => exact legible_end
    | some hash => exact legible_next (.str rfl) legible_end

end PayloadStatus

namespace Header

theorem ofJson?_toJson (h : Header) : ofJson? h.toJson = some h := by
  refine reading_next (Json.recordOf?_obj rfl (by decide : shape.names.Nodup)) ?_
  iterate 6 apply reading_next (Json.fixed?_ofFixed _)
  apply reading_next (Json.nullable?_ofOption nofun Json.fixed?_ofFixed _)
  apply reading_next (Json.fixed?_ofFixed _)
  apply reading_next (Json.uint256?_ofUInt256 _)
  iterate 4 apply reading_next (Json.uint64?_ofUInt64 _)
  apply reading_next (Json.fixed?_ofFixed _)
  apply reading_next (Json.uint64?_ofUInt64 _)
  apply reading_next (Json.nullable?_ofOption nofun Json.uint64?_ofUInt64 _)
  apply reading_next (Json.bytes?_ofBytes _)
  rfl

theorem legible_toJson (h : Header) : Legible (depth + 1) shape h.toJson := by
  apply Legible.obj rfl
  iterate 6 apply legible_next (.str rfl)
  apply legible_next (legible_ofOption rfl (fun _ => .str rfl) _)
  iterate 2 apply legible_next (.str rfl)
  iterate 4 apply legible_next (legible_ofUInt64 rfl _)
  apply legible_next (.str rfl)
  apply legible_next (legible_ofUInt64 rfl _)
  apply legible_next (legible_ofOption rfl (legible_ofUInt64 rfl) _)
  apply legible_next (.str rfl)
  exact legible_end

end Header

namespace ForkchoiceState

theorem ofJson?_toJson (s : ForkchoiceState) : ofJson? s.toJson = some s := by
  refine reading_next (Json.recordOf?_obj rfl (by decide : shape.names.Nodup)) ?_
  iterate 3 apply reading_next (Json.fixed?_ofFixed _)
  rfl

theorem legible_toJson (s : ForkchoiceState) : Legible (depth + 1) shape s.toJson := by
  apply Legible.obj rfl
  iterate 3 apply legible_next (.str rfl)
  exact legible_end

end ForkchoiceState

namespace ForkchoiceUpdated

theorem ofJson?_toJson (u : ForkchoiceUpdated) : ofJson? u.toJson = some u := by
  refine reading_next (Json.recordOf?_obj rfl (by decide : shape.names.Nodup)) ?_
  apply reading_next (PayloadStatus.ofJson?_toJson _)
  apply reading_next (Json.nullable?_ofOption nofun Json.fixed?_ofFixed _)
  rfl

theorem legible_toJson (u : ForkchoiceUpdated) : Legible (depth + 2) shape u.toJson := by
  apply Legible.obj rfl
  apply legible_next (PayloadStatus.legible_toJson _)
  apply legible_next (legible_ofOption rfl (fun _ => .str rfl) _)
  exact legible_end

end ForkchoiceUpdated

/-! ### Reading what was written -/

/-- Every value of a type is read again from the text that it is written as. -/
def Json.SurvivesWire {α : Type} (shape : Shape) (write : α → Json) (read : Decoder α) : Prop :=
  ∀ a, (parse? shape (render (write a)) >>= read) = some a

/-- A value survives the wire if all that is written of it is asked for and read back. -/
theorem Json.survivesWire {α : Type} {shape : Shape} {write : α → Json} {read : Decoder α}
    (hlegible : ∀ a, Legible deepest shape (write a)) (hread : ∀ a, read (write a) = some a) :
    SurvivesWire shape write read :=
  fun a => reading_next (hlegible a).parse?_render (hread a)

/-- **The values of the engine interface survive the wire.** Whatever the hashes, the words, the
error text and the bytes, and whether or not what may be absent is there: the text that a value is
written as is read as the value again. -/
theorem engineValues_surviveWire :
    Json.SurvivesWire PayloadStatus.shape PayloadStatus.toJson PayloadStatus.ofJson? ∧
    Json.SurvivesWire ForkchoiceState.shape ForkchoiceState.toJson ForkchoiceState.ofJson? ∧
    Json.SurvivesWire ForkchoiceUpdated.shape ForkchoiceUpdated.toJson ForkchoiceUpdated.ofJson? ∧
    Json.SurvivesWire PayloadAttributes.shape PayloadAttributes.toJson PayloadAttributes.ofJson? ∧
    Json.SurvivesWire Withdrawal.shape Withdrawal.toJson Withdrawal.ofJson? ∧
    Json.SurvivesWire (.octets 8) Json.ofFixed (Json.fixed? 8 : Json.Decoder PayloadId) ∧
    Json.SurvivesWire Header.shape Header.toJson Header.ofJson? ∧
    Json.SurvivesWire PayloadEnvelope.shape PayloadEnvelope.toJson PayloadEnvelope.ofJson? :=
  ⟨Json.survivesWire PayloadStatus.legible_toJson PayloadStatus.ofJson?_toJson,
    Json.survivesWire ForkchoiceState.legible_toJson ForkchoiceState.ofJson?_toJson,
    Json.survivesWire ForkchoiceUpdated.legible_toJson ForkchoiceUpdated.ofJson?_toJson,
    Json.survivesWire PayloadAttributes.legible_toJson PayloadAttributes.ofJson?_toJson,
    Json.survivesWire Withdrawal.legible_toJson Withdrawal.ofJson?_toJson,
    Json.survivesWire (fun _ => .str rfl) Json.fixed?_ofFixed,
    Json.survivesWire Header.legible_toJson Header.ofJson?_toJson,
    Json.survivesWire PayloadEnvelope.legible_toJson PayloadEnvelope.ofJson?_toJson⟩

end ExecutionNode
