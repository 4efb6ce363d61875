import ExecutionNode.Engine.Forkchoice
import ExecutionNode.Engine.NewPayload

/-!
# Sessions of the engine

A session is what the consensus layer asked of the engine, in order, each question with what the
surroundings answered while it was served.  The answers are arbitrary, and those to one question
say nothing about those to the next.

* `Input` names the four ways in: a payload, a forkchoice state, the request for a built payload,
  and a call that was refused before the engine saw it.
* `Engine.after` runs a session. Of what decides the answers only the registry of bad blocks ever
  changes (`maxExtraData_after`, `announces_after`).
-/

namespace ExecutionNode.Engine

/-- What the consensus layer asks of the engine. -/
inductive Input where
  /-- To judge a payload. -/
  | newPayload (payload : Payload)
  /-- To follow a forkchoice state, and perhaps to build a payload. -/
  | forkchoice (state : ForkchoiceState) (attributes : Option PayloadAttributes)
  /-- To hand out a built payload. -/
  | getPayload (id : PayloadId)
  /-- Something that was refused on the way. -/
  | rejected
deriving DecidableEq

/-- What the engine says. -/
inductive Output where
  /-- The status of a payload. -/
  | status (status : PayloadStatus)
  /-- The answer to a forkchoice state. -/
  | updated (updated : ForkchoiceUpdated)
  /-- A built payload, if there is one. -/
  | built (payload : Option BuiltPayload)
  /-- Nothing; the call was noted. -/
  | noted
deriving DecidableEq

/-- Serves one input. -/
def handle (e : Engine) (a : Answers) : Input → Reply CallError Output
  | .newPayload payload => (e.newPayload a payload).mapResult (·.map .status)
  | .forkchoice state attributes =>
    (e.forkchoiceUpdated a state attributes).mapResult (·.map .updated)
  | .getPayload id => (e.getPayload a id).mapResult (·.map .built)
  | .rejected => e.rejectedCall.mapResult (·.map fun _ => .noted)

/-- Inputs in order, each with the answers of the surroundings while it is served. -/
abbrev Session := List (Answers × Input)

/-- The engine after a session. -/
def after (e : Engine) (session : Session) : Engine :=
  session.foldl (fun e x => e.afterReply (e.handle x.1 x.2)) e

section frame

variable {ε α β : Type}

/-! ### What the parts of a reply are -/

@[simp] theorem calls_reply_after (r : Reply ε α) (calls : List Call) :
    (r.after calls).calls = calls ++ r.calls := rfl

@[simp] theorem result_reply_after (r : Reply ε α) (calls : List Call) :
    (r.after calls).result = r.result := rfl

@[simp] theorem calls_followedBy (r : Reply ε α) (calls : List Call) :
    (r.followedBy calls).calls = r.calls ++ calls := rfl

@[simp] theorem result_followedBy (r : Reply ε α) (calls : List Call) :
    (r.followedBy calls).result = r.result := rfl

@[simp] theorem badBlocks_mapResult (f : Except ε α → Except ε β) (r : Reply ε α) :
    (r.mapResult f).badBlocks = r.badBlocks := rfl

@[simp] theorem result_mapResult (f : Except ε α → Except ε β) (r : Reply ε α) :
    (r.mapResult f).result = f r.result := rfl

variable (e : Engine)

@[simp] theorem badBlocks_afterReply (r : Reply ε α) :
    (e.afterReply r).badBlocks = r.badBlocks := rfl

@[simp] theorem maxExtraData_afterReply (r : Reply ε α) :
    (e.afterReply r).maxExtraData = e.maxExtraData := rfl

@[simp] theorem announces_afterReply (r : Reply ε α) :
    (e.afterReply r).announces = e.announces := rfl

end frame

variable (e : Engine)

/-! ### Running a session -/

@[simp] theorem after_nil : e.after [] = e := rfl

@[simp] theorem after_cons (x : Answers × Input) (session : Session) :
    e.after (x :: session) = (e.afterReply (e.handle x.1 x.2)).after session := rfl

/-- How long free bytes may be is settled once. -/
@[simp] theorem maxExtraData_after (session : Session) :
    (e.after session).maxExtraData = e.maxExtraData := by
  induction session generalizing e with
  | nil => rfl
  | cons x session ih => rw [after_cons, ih, maxExtraData_afterReply]

/-- Whether forkchoice states are passed on is settled once. -/
@[simp] theorem announces_after (session : Session) :
    (e.after session).announces = e.announces := by
  induction session generalizing e with
  | nil => rfl
  | cons x session ih => rw [after_cons, ih, announces_afterReply]

end ExecutionNode.Engine
