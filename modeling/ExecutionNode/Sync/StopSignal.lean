/-!
# Stop signals

A downloader is stopped by a signal.  Every run arms it anew and listens with a receiver of its
own; receivers bear the number of their arming.  The signal goes off for a receiver when it is
triggered or armed again.  It counts as armed while nobody has triggered it since the last arming
and someone still listens to that one.
-/

namespace ExecutionNode.Sync

/-- A stop signal. -/
structure StopSignal where
  /-- How often the signal was armed. -/
  arms : Nat := 0
  /-- Whether the signal was not triggered since it was last armed. -/
  held : Bool := false
  /-- How many listen to the last arming. -/
  receivers : Nat := 0
deriving DecidableEq

namespace StopSignal

/-- Arms the signal for one receiver, which bears the number of all armings then. -/
def arm (s : StopSignal) : StopSignal := ⟨s.arms + 1, true, 1⟩

/-- Triggers the signal. -/
def trigger (s : StopSignal) : StopSignal := { s with held := false }

/-- Another receiver listens to an arming. -/
def share (s : StopSignal) (arming : Nat) : StopSignal :=
  if arming = s.arms then { s with receivers := s.receivers + 1 } else s

/-- A receiver of an arming no longer listens. -/
def drop (s : StopSignal) (arming : Nat) : StopSignal :=
  if arming = s.arms then { s with receivers := s.receivers - 1 } else s

/-- Whether the signal went off for the receivers of an arming. -/
def hasStopped (s : StopSignal) (arming : Nat) : Bool := arming != s.arms || !s.held

/-- Whether the last run is neither stopped nor finished. -/
def isArmed (s : StopSignal) : Bool := s.held && s.receivers != 0

end StopSignal

end ExecutionNode.Sync
