import ExecutionNode.Proofs.Engine.Session

/-!
# What is done to judge a payload

To judge a payload the engine asks, has a block executed, or hands one to backward sync, and does
nothing else (`judges_judgePayload`, with one lemma for each stage).
-/

namespace ExecutionNode.Engine

variable {e : Engine} {a : Answers} {ε α β : Type}

/-- The calls by which a payload is judged. -/
def Call.judges : Call → Bool
  | .readBlock _ => true
  | .readHeader _ => true
  | .askSyncing => true
  | .askDescends _ => true
  | .askLatestValid _ => true
  | .askLatestValidByHash _ => true
  | .process _ => true
  | .append _ => true
  | _ => false

/-- Nothing was done but to judge a payload. -/
def Judges (r : Reply ε α) : Prop := ∀ c ∈ r.calls, c.judges = true

theorem judges_answer (x : α) : Judges (e.answer x : Reply ε α) := nofun

theorem judges_fail (x : ε) : Judges (e.fail x : Reply ε α) := nofun

theorem judges_answerRecording (b : BadBlock) (x : α) :
    Judges (e.answerRecording b x : Reply ε α) := nofun

/-- A step of judging in front of others. -/
theorem Judges.after {r : Reply ε α} (h : Judges r) {c : Call} (hc : c.judges = true) :
    Judges (r.after [c]) := List.forall_mem_cons.mpr ⟨hc, h⟩

theorem judges_reading {read : Except ReadError α} {go : α → Reply CallError β}
    (h : ∀ x, Judges (go x)) : Judges (e.reading read go) := by
  unfold reading
  split
  · exact judges_fail _
  · exact h _

theorem judges_malformed (parentHash : Hash) (error : Payload.ConversionError) :
    Judges (e.malformed a parentHash error) := by
  unfold malformed
  split
  · exact judges_answer _
  · exact (judges_reading fun ancestor => judges_answer _).after rfl
  · exact judges_answer _

theorem judges_execute (block : Block) (ancestor : Hash) :
    Judges (e.execute a block ancestor) := by
  unfold execute
  refine Judges.after ?_ rfl
  split
  · exact judges_fail _
  · exact judges_fail _
  · exact judges_answer _
  · exact judges_answerRecording _ _

theorem judges_judge (block : Block) (parent : SealedHeader) (descends : Bool)
    (ancestor : Option Hash) : Judges (e.judge a block parent descends ancestor) := by
  unfold judge
  split
  · exact judges_answer _
  · split
    · cases ancestor with
      | none => exact judges_answer _
      | some ancestor => exact judges_execute block ancestor
    · exact judges_answerRecording _ _

theorem judges_findParent (block : Block) : Judges (e.findParent a block) := by
  refine (judges_reading fun known => ?_).after rfl
  cases known with
  | none => exact (judges_answer _).after rfl
  | some parent =>
    refine (judges_reading fun descends => ?_).after rfl
    exact (judges_reading fun ancestor => judges_judge block parent descends ancestor).after rfl

theorem judges_admission (block : Block) : Judges (e.admission a block) := by
  refine (judges_reading fun stored => ?_).after rfl
  cases stored with
  | some known => exact judges_answer _
  | none =>
    refine Judges.after ?_ rfl
    split
    · exact judges_answer _
    · exact judges_findParent block

/-- **To judge a payload is to ask, to have blocks executed and to hand them on.** -/
theorem judges_judgePayload (payload : Payload) : Judges (e.judgePayload a payload) := by
  unfold judgePayload
  split
  · exact judges_malformed _ _
  · split
    · exact judges_answer _
    · exact judges_admission _

end ExecutionNode.Engine
