import ExecutionNode.Engine

/-!
# Counting what the engine did

The counts are read off the calls: how often the engine was called, how often each verdict was
given, and how often the latency of each method was recorded.
-/

namespace ExecutionNode.Engine

/-- The name under which a method's latency is recorded. -/
def Method.name : Method → String
  | newPayload .v1 => "new_payload_v1"
  | newPayload .v2 => "new_payload_v2"
  | forkchoiceUpdated .v1 => "fork_choice_updated_v1"
  | forkchoiceUpdated .v2 => "fork_choice_updated_v2"
  | getPayload .v1 => "get_payload_v1"
  | getPayload .v2 => "get_payload_v2"

/-- The name of a counter with its label. -/
def Counter.name : Counter → String
  | newPayload verdict => "engine.new_payload.status\x7bstatus=" ++ verdict ++ "\x7d"
  | newPayloadError => "engine.new_payload.internal_errors"
  | forkchoice verdict => "engine.forkchoice_updated.status\x7bstatus=" ++ verdict ++ "\x7d"
  | latency method => "engine.rpc." ++ method.name

/-- The name of the counter that a call adds to. Whether signals are counted is up to who
receives them. -/
def Call.counterName? (countsSignals : Bool) : Call → Option String
  | .signal => if countsSignals then some "engine.calls" else none
  | .count counter => some counter.name
  | _ => none

/-- The counters that calls touched, with their counts, in the order of the first touch. -/
def counts (countsSignals : Bool) (calls : List Call) : List (String × Nat) :=
  let names := calls.filterMap (·.counterName? countsSignals)
  names.eraseDups.map fun name => (name, names.count name)

end ExecutionNode.Engine
