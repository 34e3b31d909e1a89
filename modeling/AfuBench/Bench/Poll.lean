import AfuBench.Bench.Basic

namespace AfuBench

section

variable {σ : Type}

def pollFrom (condition : ExceptT BenchError (StateM σ) Bool) (failed : Nat) :
    Nat → ExceptT BenchError (StateM σ) Nat
  | 0 => throw (.hang failed)
  | left + 1 => do
    if ← condition then return failed
    pollFrom condition (failed + 1) left

/-- At least one poll is made, whatever the limit. -/
def pollUntil (limit : Nat) (condition : ExceptT BenchError (StateM σ) Bool) :
    ExceptT BenchError (StateM σ) Nat :=
  pollFrom condition 0 (max limit 1)

end

namespace Bench

variable {σ : Type} [Bus σ]

/-- A run is done once some engine is enabled and none of the selected engines is active: the
enabled mask covers the time between a start and the first activity. -/
def waitDone (mask : UInt64) (limit : Nat) : Bench σ Nat :=
  pollUntil limit do
    let enabled ← enabled
    let active ← active
    return enabled ≠ 0 ∧ active &&& mask = 0

def waitStarted (limit : Nat) : Bench σ Nat :=
  pollUntil limit do return (← enabled) ≠ 0

def waitIdle (limit : Nat) : Bench σ Nat :=
  pollUntil limit do return (← active) = 0

end Bench

end AfuBench
