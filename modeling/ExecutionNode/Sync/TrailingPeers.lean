/-!
# Peers that trail behind

A download may ask that peers whose head is too low are let go, except for a few.
-/

namespace ExecutionNode.Sync

/-- Which peers may be let go. -/
structure TrailingPeers where
  /-- The lowest head of a peer that does not trail. -/
  minimumHead : UInt64
  /-- How many trailing peers are kept. -/
  kept : UInt64
deriving DecidableEq

namespace TrailingPeers

/-- The greatest number of peers, which stands for all of them. -/
def all : UInt64 := UInt64.ofNat (UInt64.size - 1)

/-- No peer may be let go. -/
def unrestricted : TrailingPeers := ⟨0, all⟩

/-- Whether a peer of a head trails. -/
def isTrailing (r : TrailingPeers) (head : UInt64) : Bool := head < r.minimumHead

/-- Whether no peer can be let go: none trails or all are kept. -/
def isUnrestricted (r : TrailingPeers) : Bool := r.minimumHead == 0 || r.kept == all

end TrailingPeers

end ExecutionNode.Sync
