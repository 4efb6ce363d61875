import ExecutionNode.Config
import ExecutionNode.Forkchoice
import ExecutionNode.Header
import ExecutionNode.Sync.Error

/-!
# Choosing the pivot block

The pivot block is the one whose world state is fetched.  It is found in one of two ways: a fixed
distance behind the head that enough peers reached, or as the safe block that the consensus layer
announced last.  Either way looks again and again until it knows which header to fetch or its
time is over; what a look finds counts even when it comes late.
-/

namespace ExecutionNode.Sync

/-- How a header is asked for. -/
inductive HeaderQuery where
  /-- By its number. -/
  | number (n : UInt64)
  /-- By its hash. -/
  | hash (h : Hash)
deriving DecidableEq

/-- What a look leads to. -/
inductive Look (α : Type) where
  /-- The search is over. -/
  | decided (result : Except PivotError α)
  /-- It has to look again. -/
  | again

/-! ### By the heads of the peers -/

/-- Chooses the pivot block behind the head that enough peers reached. -/
structure PeerSelector where
  /-- How far behind. -/
  distance : UInt64
  /-- How many peers are enough. -/
  minPeers : Nat
  /-- How long to look. -/
  timeout : Duration
deriving DecidableEq

namespace PeerSelector

/-- The greatest height that enough of the heads reach. Nothing is enough for nobody. -/
def agreed? (s : PeerSelector) (heads : List UInt64) : Option UInt64 :=
  if s.minPeers = 0 then none else (heads.mergeSort (· ≥ ·))[s.minPeers - 1]?

/-- A look at the heads, in time or late. -/
def look (s : PeerSelector) (heads : List UInt64) (late : Bool) : Look UInt64 :=
  match s.agreed? heads with
  | some height => .decided (.ok height)
  | none => if late then .decided (.error (.notEnoughPeers heads.length s.minPeers)) else .again

/-- The number of the pivot block under a height. The first block is never chosen. -/
def pivotNumber (s : PeerSelector) (height : UInt64) : Except PivotError UInt64 :=
  if height > s.distance then .ok (height - s.distance)
  else .error (.chainTooShort height s.distance)

end PeerSelector

/-! ### By the safe block -/

/-- Chooses the safe block that was announced last. -/
structure SafeBlockSelector where
  /-- The safe block. -/
  safeBlock : Option Hash
  /-- How long to look. -/
  timeout : Duration
deriving DecidableEq

namespace SafeBlockSelector

/-- Hears of a forkchoice state; one without a safe block changes nothing. -/
def announce (s : SafeBlockSelector) (state : ForkchoiceState) : SafeBlockSelector :=
  if state.hasSafe then { s with safeBlock := some state.safe } else s

/-- Forgets the safe block. -/
def close (s : SafeBlockSelector) : SafeBlockSelector := { s with safeBlock := none }

/-- A look, in time or late. -/
def look (s : SafeBlockSelector) (late : Bool) : Look Hash :=
  match s.safeBlock with
  | some hash => .decided (.ok hash)
  | none => if late then .decided (.error .noSafeBlock) else .again

end SafeBlockSelector

/-! ### Either way -/

/-- A way to choose the pivot block. -/
inductive Selector where
  /-- By the heads of the peers. -/
  | peers (s : PeerSelector)
  /-- By the safe block. -/
  | safeBlock (s : SafeBlockSelector)
deriving DecidableEq

namespace Selector

/-- How long to wait between two looks where nothing else is set. -/
def defaultPollInterval : Duration := .milliseconds 500

/-- How long to look. -/
def timeout : Selector → Duration
  | peers s => s.timeout
  | safeBlock s => s.timeout

/-- Whether a look asks for the heads of the peers. -/
def readsHeads : Selector → Bool
  | peers _ => true
  | safeBlock _ => false

/-- Hears of a forkchoice state. -/
def announce (state : ForkchoiceState) : Selector → Selector
  | peers s => .peers s
  | safeBlock s => .safeBlock (s.announce state)

/-- Lets go of what is no longer needed. -/
def close : Selector → Selector
  | peers s => .peers s
  | safeBlock s => .safeBlock s.close

/-- A look, with the heads of the peers, in time or late. -/
def look (heads : List UInt64) (late : Bool) : Selector → Look HeaderQuery
  | peers s =>
    match s.look heads late with
    | .again => .again
    | .decided result => .decided ((result.bind s.pivotNumber).map .number)
  | safeBlock s =>
    match s.look late with
    | .again => .again
    | .decided result => .decided (result.map .hash)

end Selector

/-- What the answer to a query comes to. -/
def HeaderQuery.conclude (q : HeaderQuery) :
    Except Fault (Option SealedHeader) → Except PivotError SealedHeader
  | .error f => .error (.fault f)
  | .ok (some header) => .ok header
  | .ok none =>
    match q with
    | .number n => .error (.headerUnavailable n)
    | .hash h => .error (.unknownSafeBlock h)

end ExecutionNode.Sync
