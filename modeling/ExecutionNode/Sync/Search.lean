import ExecutionNode.Sync.Collaborators

/-!
# The search for a pivot block

Whoever chooses a pivot block looks for it, pauses, and looks again, until a look decides the
search.  A look at the deadline or after it is late, and a late look always decides.  The first
look is due at once.  If the clock cannot show the deadline the search breaks down before that.
-/

namespace ExecutionNode.Sync

/-- A search that is under way. Times are in nanoseconds. -/
structure Search where
  /-- When the next look is due. -/
  due : Nat
  /-- The time from which looks are late. -/
  deadline : Nat
deriving DecidableEq

namespace Search

/-- Where a look leaves a search. -/
inductive Turn (α : Type) where
  /-- It goes on. -/
  | pending (search : Search)
  /-- It is over. -/
  | settled (result : Except PivotError α)

/-- The end of the clock. Its seconds are a signed word of 64 bits, and it shows the times before
their last one is over. -/
def clockEnd : Nat := 9223372036854775808 * 1000000000

/-- A search that begins now. -/
def begin (timeout : Duration) (now : Nat) : Search := ⟨now, now + timeout.nanoseconds⟩

/-- A search that begins now, unless the clock cannot show its deadline. -/
def begin? (timeout : Duration) (now : Nat) : Option Search :=
  if (begin timeout now).deadline < clockEnd then some (begin timeout now) else none

/-- A search that pauses from now on. -/
def pause (s : Search) (interval : Duration) (now : Nat) : Search :=
  { s with due := now + interval.nanoseconds }

/-- A look now, which is in time or late. -/
def poll {α : Type} (s : Search) (interval : Duration) (look : Bool → Look α) (now : Nat) :
    Turn α :=
  match look (s.deadline ≤ now) with
  | .again => .pending (s.pause interval now)
  | .decided result => .settled result

end Search

namespace Selector

/-- The search for a pivot block that begins now, unless it breaks down. -/
def search? (s : Selector) (now : Nat) : Option Search := Search.begin? s.timeout now

/-- Takes note of a call, which may be meant for the selector. -/
def hear (s : Selector) : Call → Selector
  | .announceToSelector state => s.announce state
  | .closeSelector => s.close
  | _ => s

end Selector

end ExecutionNode.Sync
