namespace AfuBench

structure Settings where
  intervalMs : Nat
  /-- Polls that may fail before an engine counts as hung. -/
  maxTrips : Nat
  runMs : Nat
  simulation : Bool
  deriving DecidableEq, Repr

namespace Settings

def new (simulation : Bool) : Settings :=
  if simulation then ⟨1000, 10, 10000, true⟩ else ⟨1, 10, 1000, false⟩

def withInterval (s : Settings) (ms : Nat) : Settings :=
  { s with intervalMs := ms }

def withMaxTrips (s : Settings) (trips : Nat) : Settings :=
  { s with maxTrips := max trips 1 }

def withRunTime (s : Settings) (ms : Nat) : Settings :=
  { s with runMs := ms }

end Settings

end AfuBench
