import ExecutionNode.Proofs.Engine.Registry

/-!
# Verdicts that stay

A block that was recorded as bad is answered from its record ever after.  The first answer and the
later ones come from different places: the first from the verdict, the later ones from the
registry, by way of a payload or of a forkchoice state.  They agree on the latest valid hash
because a record is never replaced (`find?_after`) and because the registry shows a record without
an ancestor the way the verdict did, with the zero hash (`status?_of_find?`).

The later answers are stated as whole replies, calls included.  So they also say what is not
done: the store and the resolver are not asked, nothing is executed or handed to backward sync, and
no payload is built.
-/

namespace ExecutionNode.Engine

variable {e : Engine} {a : Answers}

/-! ### Records and what they answer -/

/-- A record is found under its hash. -/
theorem find?_of_mem {r : BadBlocks} {b : BadBlock} (h : b ∈ r.entries) :
    r.find? b.id.hash = some b := by
  obtain ⟨c, hc⟩ := Option.isSome_iff_exists.mp (BadBlocks.contains_iff.mpr ⟨b, h, rfl⟩)
  have hhash : c.id.hash = b.id.hash := by simpa using List.find?_some hc
  rw [hc, eq_of_hash_eq r (List.mem_of_find?_eq_some hc) h hhash]

/-- A record that was found once is found after every session. -/
theorem find?_after {hash : Hash} {b : BadBlock} (h : e.badBlocks.find? hash = some b)
    (session : Session) : (e.after session).badBlocks.find? hash = some b := by
  have hhash : b.id.hash = hash := by simpa using List.find?_some h
  have hmem : b ∈ e.badBlocks.entries := List.mem_of_find?_eq_some h
  rw [← hhash]
  exact find?_of_mem ((entries_prefix_after e session).subset hmem)

/-- The error text that goes with a record: one only where no ancestor is known. -/
def BadBlock.text? (b : BadBlock) : Option String :=
  match b.latestValidHash with
  | some _ => none
  | none => some BadBlocks.alreadyBad

/-- The latest valid hash that goes with a record. -/
def BadBlock.shownHash (b : BadBlock) : Hash := b.latestValidHash.getD (.zero 32)

/-- There is an error text exactly where no ancestor is known. -/
theorem BadBlock.isSome_text?_iff (b : BadBlock) :
    b.text?.isSome ↔ b.latestValidHash = none := by
  unfold BadBlock.text?
  cases b.latestValidHash with
  | none => simp
  | some ancestor => simp

/-- What the registry answers for a record. -/
theorem status?_of_find? {r : BadBlocks} {hash : Hash} {b : BadBlock} (h : r.find? hash = some b) :
    r.status? hash = some (.invalid (some b.shownHash) b.text?) := by
  unfold BadBlocks.status? BadBlock.shownHash BadBlock.text?
  rw [h, Option.map_some]
  cases b.latestValidHash <;> rfl

/-! ### Later answers -/

/-- A payload of a recorded block is answered from the record, and nothing else is done. -/
theorem newPayload_of_find? {payload : Payload} {block : Block} {b : BadBlock}
    (hconv : payload.toBlock e.maxExtraData = .ok block)
    (h : e.badBlocks.find? block.hash = some b) :
    e.newPayload a payload = ⟨.ok (.invalid (some b.shownHash) b.text?), e.badBlocks,
      [.signal, .count (.newPayload "INVALID")]⟩ := by
  unfold newPayload
  rw [judgePayload_of_status? hconv (status?_of_find? h)]
  rfl

/-- A recorded head is answered from the record, and nothing else is done than to pass the
forkchoice state on. -/
theorem forkchoiceUpdated_of_find? {state : ForkchoiceState}
    (attributes : Option PayloadAttributes) {b : BadBlock} (hzero : state.head.isZero = false)
    (h : e.badBlocks.find? state.head = some b) :
    e.forkchoiceUpdated a state attributes =
      ⟨.ok ⟨.invalid (some b.shownHash) b.text?, none⟩, e.badBlocks,
        .signal :: (if e.announces then [.announce state] else []) ++
          [.count (.forkchoice "INVALID")]⟩ := by
  have hhead : e.judgeHead a state.head attributes =
      e.answer (.ofStatus (.invalid (some b.shownHash) b.text?)) := by
    unfold judgeHead
    rw [status?_of_find? h]
  unfold forkchoiceUpdated judgeForkchoice
  rw [hhead, if_neg (by rw [hzero]; exact Bool.false_ne_true)]
  simp [Reply.after, Reply.followedBy, answer, forkchoiceCounters, ForkchoiceUpdated.ofStatus,
    PayloadStatus.invalid, Verdict.name]

/-- The status of a payload, as the engine's output for it. -/
theorem result_newPayload_of_handle {payload : Payload} {status : PayloadStatus}
    (h : (e.handle a (.newPayload payload)).result = .ok (.status status)) :
    (e.newPayload a payload).result = .ok status := by
  rw [handle, result_mapResult] at h
  cases hresult : (e.newPayload a payload).result with
  | error error => rw [hresult] at h; cases h
  | ok judged => rw [hresult] at h; exact congrArg _ (Output.status.inj (Except.ok.inj h))

/-- A payload whose block entered the registry was condemned under the hash of that block. -/
theorem exists_condemns_of_recorded {payload : Payload} {hash : Hash}
    (hfresh : e.badBlocks.contains hash = false)
    (hrecorded : (e.newPayload a payload).badBlocks.contains hash = true) :
    ∃ b, Condemns e a (.newPayload payload) b ∧ b.id.hash = hash := by
  obtain ⟨b, hb, rfl⟩ := BadBlocks.contains_iff.mp hrecorded
  rcases (mem_entries_handle_iff e a (.newPayload payload) b).mp hb with hold | hnew
  · rw [BadBlocks.contains_iff.mpr ⟨b, hold, rfl⟩] at hfresh
    cases hfresh
  · exact ⟨b, hnew, rfl⟩

/-- **An invalid verdict is permanent.** Let a payload record the block of a hash. Then it is
answered as invalid with a latest valid hash, and after any later session, whatever the
surroundings answer by then:

* every payload whose block has that hash is answered as invalid with the same latest valid hash,
  and all that is done is to note and to count the call;
* every forkchoice state whose head is that hash is answered the same way, without a payload, and
  all that is done besides is to pass the state on.

Both carry an error text exactly if the block was recorded without an ancestor, and then the
latest valid hash is zero. -/
theorem verdict_permanent {payload : Payload} {hash : Hash}
    (hfresh : e.badBlocks.contains hash = false)
    (hrecorded : (e.newPayload a payload).badBlocks.contains hash = true) :
    ∃ latestValid reason text,
      (e.newPayload a payload).result = .ok (.invalid (some latestValid) (some reason)) ∧
      (text.isSome ↔ (e.newPayload a payload).badBlocks.latestValidHash hash = none) ∧
      (text.isSome → latestValid = .zero 32) ∧
      ∀ (session : Session) (a' : Answers),
        let later := (e.afterReply (e.newPayload a payload)).after session
        (∀ payload' block, payload'.toBlock e.maxExtraData = .ok block → block.hash = hash →
          later.newPayload a' payload' = ⟨.ok (.invalid (some latestValid) text),
            later.badBlocks, [.signal, .count (.newPayload "INVALID")]⟩) ∧
        (∀ state attributes, state.head = hash → hash.isZero = false →
          later.forkchoiceUpdated a' state attributes =
            ⟨.ok ⟨.invalid (some latestValid) text, none⟩, later.badBlocks,
              .signal :: (if e.announces then [.announce state] else []) ++
                [.count (.forkchoice "INVALID")]⟩) := by
  obtain ⟨b, hb, rfl⟩ := exists_condemns_of_recorded hfresh hrecorded
  obtain ⟨reason, hresult⟩ := hb.result_handle
  have hfind : (e.newPayload a payload).badBlocks.find? b.id.hash = some b :=
    find?_of_mem ((mem_entries_handle_iff e a (.newPayload payload) b).mpr (.inr hb))
  refine ⟨b.shownHash, reason, b.text?, ?_, ?_, ?_, fun session a' => ?_⟩
  · exact result_newPayload_of_handle hresult
  · rw [BadBlocks.latestValidHash, hfind, Option.bind_some]
    exact b.isSome_text?_iff
  · intro htext
    rw [BadBlock.shownHash, b.isSome_text?_iff.mp htext, Option.getD_none]
  · intro later
    have hlater : later.badBlocks.find? b.id.hash = some b := find?_after hfind session
    have hmax : later.maxExtraData = e.maxExtraData := by simp [later]
    have hann : later.announces = e.announces := by simp [later]
    refine ⟨fun payload' block hconv hhash => ?_, fun state attributes hhead hzero => ?_⟩
    · exact newPayload_of_find? (by rw [hmax]; exact hconv) (by rw [hhash]; exact hlater)
    · rw [← hann]
      exact forkchoiceUpdated_of_find? attributes (by rw [hhead]; exact hzero)
        (by rw [hhead]; exact hlater)

/-! ### A block that fails -/

/-- A payload without a body that declares the hash of its own header. -/
def barePayload (timestamp : UInt64) : Payload :=
  let unsealed : Payload :=
    ⟨.zero 32, .zero 20, .zero 32, .zero 32, .zero 256, .zero 32, 1, 0, 0, timestamp, some [], 7,
      .zero 32, [], none⟩
  { unsealed with blockHash := unsealed.header.hash }

/-- The block of a payload without a body. -/
def bareBlock (timestamp : UInt64) : Block :=
  ⟨⟨(barePayload timestamp).header, (barePayload timestamp).blockHash⟩, [], none⟩

/-- A payload that declares the hash of its own header is a block. -/
theorem toBlock_barePayload (timestamp : UInt64) :
    (barePayload timestamp).toBlock 32 = .ok (bareBlock timestamp) := by
  have hhash : (barePayload timestamp).header.hash = (barePayload timestamp).blockHash := rfl
  have hfee : ¬ (barePayload timestamp).baseFeePerGas.toNat ≥ UInt64.size := by
    show ¬ (7 : Nat) ≥ UInt64.size
    decide
  unfold Payload.toBlock
  rw [if_neg hfee]
  dsimp only
  rw [if_neg (not_not_intro hhash)]
  rfl

/-- Surroundings that know a parent and an ancestor for every block, and in which every block fails
with one reason. -/
def failing (reason : String) : Answers where
  block _ := .ok none
  header _ := .ok (some default)
  syncing := false
  descends _ := .ok true
  latestValid _ := .ok (some (.zero 32))
  latestValidByHash _ := .ok none
  process _ := .ok (.failure reason)
  startPayload _ _ := .error (.failed reason)
  builtPayload _ := none

/-- An engine without records. -/
def fresh : Engine := ⟨.empty, 32, true, true⟩

/-- In failing surroundings a block is condemned as soon as it is younger than its parent. -/
theorem condemns_failing (reason : String) {timestamp : UInt64} (h : 0 < timestamp) :
    Condemns fresh (failing reason) (.newPayload (barePayload timestamp))
      ⟨(bareBlock timestamp).id, some (.zero 32)⟩ :=
  .failed ⟨toBlock_barePayload timestamp, rfl, rfl, rfl, rfl, rfl, rfl⟩ h rfl

/-- In failing surroundings a block is recorded as soon as it is younger than its parent. -/
theorem contains_failing (reason : String) {timestamp : UInt64} (h : 0 < timestamp) :
    (fresh.newPayload (failing reason) (barePayload timestamp)).badBlocks.contains
      (bareBlock timestamp).hash = true := by
  have hmem := (mem_entries_handle_iff fresh (failing reason) (.newPayload (barePayload timestamp))
    ⟨(bareBlock timestamp).id, some (.zero 32)⟩).mpr (.inr (condemns_failing reason h))
  exact BadBlocks.contains_iff.mpr ⟨_, hmem, rfl⟩

/-- A block fails once and is refused ever after. -/
theorem verdict_permanent_of_failed :
    fresh.badBlocks.contains (bareBlock 12).hash = false ∧
    (fresh.newPayload (failing "wrong state root") (barePayload 12)).badBlocks.contains
      (bareBlock 12).hash = true ∧
    ∃ latestValid text, ∀ (session : Session) (a' : Answers),
      (((fresh.afterReply (fresh.newPayload (failing "wrong state root") (barePayload 12))).after
        session).newPayload a' (barePayload 12)).result =
          .ok (.invalid (some latestValid) text) := by
  have hrecorded := contains_failing "wrong state root" (by decide : (0 : UInt64) < 12)
  obtain ⟨latestValid, reason, text, -, -, -, hlater⟩ := verdict_permanent rfl hrecorded
  refine ⟨rfl, hrecorded, latestValid, text, fun session a' => ?_⟩
  rw [(hlater session a').1 (barePayload 12) (bareBlock 12) (toBlock_barePayload 12) rfl]

end ExecutionNode.Engine
