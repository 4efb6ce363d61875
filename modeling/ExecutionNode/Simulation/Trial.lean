import ExecutionNode.Engine.Rpc
import ExecutionNode.Engine.Summary
import ExecutionNode.Simulation.Surroundings

/-!
# An engine on trial

An engine is put among simulated surroundings.  Each call is answered as the surroundings are set
at that time; afterwards engine and surroundings are those that the call left behind.
-/

namespace ExecutionNode.Simulation

open Engine

/-- An engine among simulated surroundings. -/
structure Trial where
  /-- The engine. -/
  engine : Engine
  /-- Its surroundings. -/
  surroundings : Surroundings
  /-- The name of the payload that was asked for last; zero at first. -/
  lastPayload : PayloadId := .zero 8

namespace Trial

variable {ε α : Type} (t : Trial)

/-- The payload whose building a call starts. -/
def startedPayload? : Call → Option PayloadId
  | .startPayload parent attributes =>
    if t.surroundings.builderFailure.isSome then none else some (attributes.payloadId parent)
  | _ => none

/-- Takes over what a reply leaves behind. -/
def after (r : Reply ε α) : Trial where
  engine := t.engine.afterReply r
  surroundings := t.surroundings.observeAll r
  lastPayload := (r.calls.filterMap t.startedPayload?).getLast?.getD t.lastPayload

/-- Makes a call, with its result. -/
def make (call : Engine → Answers → Reply ε α) : Trial × Except ε α :=
  let r := call t.engine t.surroundings.answers
  (t.after r, r.result)

end Trial

end ExecutionNode.Simulation
