import ExecutionNode.Engine.Rpc
import ExecutionNode.Proofs.Json.Notation
import ExecutionNode.Proofs.Json.Written
import ExecutionNode.Proofs.Json.Wire

/-!
# Payloads in every notation

A payload can be written in many ways, and all of them are read as the same payload.

* `Withdrawal.Rendered` and `Payload.Rendered` say what fields an object has to have to show a
  value, in any order and among any other fields: each number in one of its notations, each byte
  string in one of its own, and each field that has a value of its own possibly left out.
* `Payload.Rendered.ofJson?_eq` reads the fields, and `Payload.Rendered.only?_eq` the text of such
  an object, whatever blanks and escapes it is written with.
* `Payload.notation_independent`: the text is read as the payload, and a call with it is served as
  one with the payload.

A plain number is written with digits only, as there is no point, exponent or sign in a word.
-/

namespace ExecutionNode

open Json (Holds Missing Allowed Optional Listed Numbered Octets Once)

/-! ### Withdrawals -/

/-- Fields that show a withdrawal. -/
structure Withdrawal.Rendered (w : Withdrawal) (fields : List (String × Json)) : Prop where
  /-- No field of a withdrawal stands twice. -/
  once : Once shape.names fields
  /-- The running number. -/
  index : Holds fields "index" (Numbered w.index.toNat)
  /-- The validator. -/
  validatorIndex : Holds fields "validatorIndex" (Numbered w.validatorIndex.toNat)
  /-- The account. -/
  address : Holds fields "address" (Octets w.address.toList)
  /-- The amount. -/
  amount : Holds fields "amount" (Numbered w.amount.toNat)

/-- The objects that show a withdrawal. -/
def Withdrawal.Shown (w : Withdrawal) (j : Json) : Prop :=
  ∃ fields, j = .obj fields ∧ w.Rendered fields

theorem Withdrawal.Rendered.ofJson?_eq {w : Withdrawal} {fields : List (String × Json)}
    (h : w.Rendered fields) : ofJson? (.obj fields) = some w := by
  refine reading_next h.once.recordOf?_eq ?_
  apply reading_next (h.index.required_eq h.once (by decide) fun _ => Numbered.wideUInt64?_eq)
  apply reading_next
    (h.validatorIndex.required_eq h.once (by decide) fun _ => Numbered.wideUInt64?_eq)
  apply reading_next (h.address.required_eq h.once (by decide) fun _ => Octets.fixed?_eq)
  apply reading_next (h.amount.required_eq h.once (by decide) fun _ => Numbered.wideUInt64?_eq)
  rfl

theorem Withdrawal.Shown.ofJson?_eq {w : Withdrawal} {j : Json} (h : w.Shown j) :
    ofJson? j = some w := by
  obtain ⟨fields, rfl, hfields⟩ := h
  exact hfields.ofJson?_eq

/-! ### Payloads -/

namespace Payload

/-- Fields that show a payload. -/
structure Rendered (p : Payload) (fields : List (String × Json)) : Prop where
  /-- No field of a payload stands twice. -/
  once : Once shape.names fields
  /-- The hash of the parent. -/
  parentHash : Holds fields "parentHash" (Octets p.parentHash.toList)
  /-- The account that collects the fees. -/
  feeRecipient : Holds fields "feeRecipient" (Octets p.feeRecipient.toList)
  /-- The root over the accounts. -/
  stateRoot : Holds fields "stateRoot" (Octets p.stateRoot.toList)
  /-- The root over the receipts. -/
  receiptsRoot : Holds fields "receiptsRoot" (Octets p.receiptsRoot.toList)
  /-- The filter over the logs. -/
  logsBloom : Holds fields "logsBloom" (Octets p.logsBloom.toList)
  /-- The random value may be left out if it is zero. -/
  prevRandao : Allowed fields "prevRandao" (Octets p.prevRandao.toList) (p.prevRandao = .zero 32)
  /-- The number of ancestors. -/
  blockNumber : Holds fields "blockNumber" (Numbered p.blockNumber.toNat)
  /-- The gas limit. -/
  gasLimit : Holds fields "gasLimit" (Numbered p.gasLimit.toNat)
  /-- The gas. -/
  gasUsed : Holds fields "gasUsed" (Numbered p.gasUsed.toNat)
  /-- The time. -/
  timestamp : Holds fields "timestamp" (Numbered p.timestamp.toNat)
  /-- The free bytes may be left out or null if there are none. -/
  extraData : Optional fields "extraData" Octets p.extraData
  /-- The base fee may be left out if it is zero. -/
  baseFeePerGas :
    Allowed fields "baseFeePerGas" (Numbered p.baseFeePerGas.toNat) (p.baseFeePerGas = 0)
  /-- The declared hash. -/
  blockHash : Holds fields "blockHash" (Octets p.blockHash.toList)
  /-- The transactions may be left out if there are none. -/
  transactions : Allowed fields "transactions" (Listed Octets p.transactions) (p.transactions = [])
  /-- The withdrawals may be left out or null if there can be none. -/
  withdrawals : Optional fields "withdrawals" (Listed Withdrawal.Shown) p.withdrawals

variable {p : Payload} {fields : List (String × Json)}

/-- **A payload is read from all fields that show it.** -/
theorem Rendered.ofJson?_eq (h : p.Rendered fields) : ofJson? (.obj fields) = some p := by
  have honce := h.once
  refine reading_next honce.recordOf?_eq ?_
  apply reading_next (h.parentHash.required_eq honce (by decide) fun _ => Octets.fixed?_eq)
  apply reading_next (h.feeRecipient.required_eq honce (by decide) fun _ => Octets.fixed?_eq)
  apply reading_next (h.stateRoot.required_eq honce (by decide) fun _ => Octets.fixed?_eq)
  apply reading_next (h.receiptsRoot.required_eq honce (by decide) fun _ => Octets.fixed?_eq)
  apply reading_next (h.logsBloom.required_eq honce (by decide) fun _ => Octets.fixed?_eq)
  apply reading_next (h.prevRandao.orElse_eq honce (by decide) fun _ => Octets.fixed?_eq)
  apply reading_next (h.blockNumber.required_eq honce (by decide) fun _ => Numbered.quantity?_eq)
  apply reading_next (h.gasLimit.required_eq honce (by decide) fun _ => Numbered.quantity?_eq)
  apply reading_next (h.gasUsed.required_eq honce (by decide) fun _ => Numbered.quantity?_eq)
  apply reading_next (h.timestamp.required_eq honce (by decide) fun _ => Numbered.quantity?_eq)
  apply reading_next (h.extraData.nullable_eq honce (by decide) (fun _ _ => Octets.ne_null)
    fun _ _ => Octets.bytes?_eq)
  apply reading_next (h.baseFeePerGas.orElse_eq honce (by decide) fun _ => Numbered.uint256?_eq)
  apply reading_next (h.blockHash.required_eq honce (by decide) fun _ => Octets.fixed?_eq)
  apply reading_next (h.transactions.orElse_eq honce (by decide)
    fun _ hj => hj.list?_eq fun _ _ => Octets.bytes?_eq)
  apply reading_next (h.withdrawals.nullable_eq honce (by decide)
    (fun _ _ hj => by obtain ⟨_, rfl, -⟩ := hj; nofun)
    fun _ _ hj => hj.list?_eq fun _ _ => Withdrawal.Shown.ofJson?_eq)
  rfl

/-! ### Texts -/

/-- The parameters of a call with one text in an array. -/
def parameters (text : Json.Padded) : String :=
  String.ofList ('[' :: (text.before ++ (text.text ++ [']'])))

/-- A payload is taken from the parameters of a call. -/
theorem Rendered.only?_eq (h : p.Rendered fields) {text : Json.Padded}
    (hwritten : Json.Written Json.deepest shape (.obj fields) text.text) :
    Engine.Rpc.only? Engine.Rpc.payload ofJson? (some (parameters text)) = some p := by
  obtain ⟨c, cs, htext, -⟩ := hwritten.opened
  have hread : Json.read? shape (text.before ++ (text.text ++ [']'])) =
      some (.obj fields, [']']) := by
    rw [Json.read?, ← Json.value_skipBlanks, Json.skipBlanks_append text.blank.1,
      Json.value_skipBlanks]
    refine hwritten.reads _ ?_ _ (Json.ends_cons (by simp) [])
    simp only [List.length_append]
    omega
  have hfilled : parameters text ≠ "[]" := by
    intro heq
    have hlength := congrArg (fun s => s.toList.length) heq
    simp [parameters, htext] at hlength
    omega
  have hlist : (parameters text).toList = '[' :: (text.before ++ (text.text ++ [']'])) :=
    String.toList_ofList
  have harguments : Engine.Rpc.arguments? [Engine.Rpc.payload] (some (parameters text)) =
      some (.arr [.obj fields]) := by
    rw [Engine.Rpc.arguments?, if_neg hfilled, hlist, if_neg (by simp), Engine.Rpc.positional,
      if_pos (.inl rfl)]
    · have hshape : Engine.Rpc.payload.shape = shape := rfl
      rw [hshape, hread]
      rfl
    · decide
  rw [Engine.Rpc.only?]
  exact reading_next harguments h.ofJson?_eq

/-- **A payload does not depend on its notation.** Each text of an object that shows a payload is
read as the payload, and a call with the text is served as one with the payload. -/
theorem notation_independent (h : p.Rendered fields) {text : Json.Padded}
    (hwritten : Json.Written Json.deepest shape (.obj fields) text.text) :
    (Json.parse? shape (String.ofList text.chars) >>= ofJson?) = some p ∧
      ∀ v e a, Engine.Rpc.newPayload v e a (some (parameters text)) =
        Engine.Rpc.serve (.newPayload v) PayloadStatus.toJson (Engine.Api.newPayload v e a p) := by
  refine ⟨reading_next hwritten.parse?_chars h.ofJson?_eq, fun v e a => ?_⟩
  rw [Engine.Rpc.newPayload, h.only?_eq hwritten]

/-! ### A text in several notations -/

/-- A payload of a block without transactions, on which only the numbers are not zero. -/
def numberedPayload : Payload where
  parentHash := .zero 32
  feeRecipient := .zero 20
  stateRoot := .zero 32
  receiptsRoot := .zero 32
  logsBloom := .zero 256
  prevRandao := .zero 32
  blockNumber := 26
  gasLimit := 26
  gasUsed := 26
  timestamp := 26
  extraData := none
  baseFeePerGas := 0
  blockHash := .zero 32
  transactions := []
  withdrawals := none

/-- A field without blanks, whose value has a text. -/
def compactField (name : String) (value : Json) (text : List Char) : Json.Field :=
  ⟨.plain (Json.quoted name), .plain text, name, value⟩

/-- A field without blanks, whose value is a string. -/
def stringField (name value : String) : Json.Field :=
  compactField name (.str value) (Json.quoted value)

/-- The fields of the payload, with a number in each notation and one that nobody asks for. -/
def numberedFields : List Json.Field :=
  [stringField "timestamp" "0X001a", stringField "gasUsed" "0x1A",
   compactField "note" .null "-1e+999".toList,
   compactField "blockNumber" (.ofNat 26) (Nat.toDigits 10 26), stringField "gasLimit" "026",
   stringField "parentHash" (FixedBytes.zero 32).text,
   stringField "feeRecipient" (FixedBytes.zero 20).text,
   stringField "stateRoot" (FixedBytes.zero 32).text,
   stringField "receiptsRoot" (FixedBytes.zero 32).text,
   stringField "logsBloom" (FixedBytes.zero 256).text,
   stringField "blockHash" (FixedBytes.zero 32).text,
   compactField "extraData" .null "null".toList]

/-- The object of the fields. -/
def numberedText : Json.Padded :=
  .plain ('\x7b' :: (Json.separated (numberedFields.map Json.Field.chars) ++ ['\x7d']))

/-- The numeral of the number in each notation. -/
theorem numerals_of_26 :
    Quantity.Numeral 26 "026".toList ∧ Quantity.Numeral 26 "0x1A".toList ∧
      Quantity.Numeral 26 "0X001a".toList := by
  have hdecimal : Quantity.Spells 10 26 ['2', '6'] := Quantity.spells_toDigits (by decide) 26
  have hupper : Quantity.Spells 16 26 ['1', 'A'] :=
    (Quantity.Spells.single (.lower (by decide : 1 < 16))).snoc (.upper (by decide : 10 < 16))
  have hlower : Quantity.Spells 16 26 ['1', 'a'] := Quantity.spells_toDigits (by decide) 26
  exact ⟨.decimal hdecimal.zero_cons, .lower hupper, .upper hlower.zero_cons.zero_cons⟩

/-- The fields show the payload. -/
theorem rendered_numberedFields :
    numberedPayload.Rendered (numberedFields.map fun field => (field.name, field.value)) where
  once := by
    show ∀ name ∈ shape.names, _
    decide
  parentHash := ⟨_, List.mem_of_getElem? (i := 5) rfl, Json.octets_ofFixed _⟩
  feeRecipient := ⟨_, List.mem_of_getElem? (i := 6) rfl, Json.octets_ofFixed _⟩
  stateRoot := ⟨_, List.mem_of_getElem? (i := 7) rfl, Json.octets_ofFixed _⟩
  receiptsRoot := ⟨_, List.mem_of_getElem? (i := 8) rfl, Json.octets_ofFixed _⟩
  logsBloom := ⟨_, List.mem_of_getElem? (i := 9) rfl, Json.octets_ofFixed _⟩
  prevRandao := .inr ⟨rfl, Json.missing_of_notMem (by decide)⟩
  blockNumber := ⟨_, List.mem_of_getElem? (i := 3) rfl, .number (by decide)⟩
  gasLimit := ⟨_, List.mem_of_getElem? (i := 4) rfl, .text numerals_of_26.1⟩
  gasUsed := ⟨_, List.mem_of_getElem? (i := 1) rfl, .text numerals_of_26.2.1⟩
  timestamp := ⟨_, List.mem_of_getElem? (i := 0) rfl, .text numerals_of_26.2.2⟩
  extraData := .inr ⟨_, List.mem_of_getElem? (i := 11) rfl, rfl⟩
  baseFeePerGas := .inr ⟨rfl, Json.missing_of_notMem (by decide)⟩
  blockHash := ⟨_, List.mem_of_getElem? (i := 10) rfl, Json.octets_ofFixed _⟩
  transactions := .inr ⟨rfl, Json.missing_of_notMem (by decide)⟩
  withdrawals := .inl (Json.missing_of_notMem (by decide))

/-- The text is one of their object. -/
theorem written_numberedText :
    Json.Written Json.deepest shape
      (.obj (numberedFields.map fun field => (field.name, field.value))) numberedText.text := by
  have hwhole : Json.Digits ['1'] := by decide
  have hpower : Json.Digits ['9', '9', '9'] := by decide
  have hnote : Json.Written 126 .skipped .null "-1e+999".toList :=
    .number (.parts (.inr rfl) (.digits hwhole (by decide)) .none
      (.mark (.inl rfl) (.inr (.inl rfl)) hpower))
  refine .obj (.kept rfl) nofun ?_ ?_
  · iterate 12 refine List.forall_mem_cons.mpr ⟨Json.named_quoted rfl _, ?_⟩
    exact nofun
  · iterate 2 refine List.forall_mem_cons.mpr ⟨Json.written_quoted rfl _, ?_⟩
    refine List.forall_mem_cons.mpr ⟨hnote, ?_⟩
    refine List.forall_mem_cons.mpr ⟨.word rfl (by decide), ?_⟩
    iterate 7 refine List.forall_mem_cons.mpr ⟨Json.written_quoted rfl _, ?_⟩
    exact List.forall_mem_cons.mpr ⟨.null, nofun⟩

/-- One payload with its numbers in four notations. -/
theorem notation_independent_of_numbered :
    numberedPayload.Rendered (numberedFields.map fun field => (field.name, field.value)) ∧
      Json.Written Json.deepest shape
        (.obj (numberedFields.map fun field => (field.name, field.value))) numberedText.text ∧
      (Json.parse? shape (String.ofList numberedText.chars) >>= ofJson?) = some numberedPayload :=
  ⟨rendered_numberedFields, written_numberedText,
    (notation_independent rendered_numberedFields written_numberedText).1⟩

end Payload

end ExecutionNode
