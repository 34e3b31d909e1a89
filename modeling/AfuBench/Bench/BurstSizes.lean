import AfuBench.Register.Capability

namespace AfuBench

/-- The sizes from `size` on. A size grows with each step, so `max` steps reach beyond `max`. -/
def sizesFrom (next : Nat → Nat) (max : Nat) : Nat → Nat → List Nat
  | 0, _ => []
  | steps + 1, size =>
    if size ≤ max then size :: sizesFrom next max steps (next size) else []

namespace Capabilities

def nextSweepSize (c : Capabilities) (size : Nat) : Nat :=
  if c.natural then 2 * size
  else if size < 4 ∨ size = c.maxBurst then size + 1
  else min (3 * size + 1) c.maxBurst

def sweepSizes (c : Capabilities) : List Nat :=
  sizesFrom c.nextSweepSize c.maxBurst c.maxBurst 1

def nextBandwidthSize (c : Capabilities) (size : Nat) : Nat :=
  if c.natural ∨ 4 ≤ size then 2 * size else size + 1

def bandwidthSizes (c : Capabilities) : List Nat :=
  sizesFrom c.nextBandwidthSize c.maxBurst c.maxBurst 1

end Capabilities

end AfuBench
