import AfuBench.Bench.BurstSizes
/-!
The loops over the burst sizes in words of 32 bits. No sum, product or shift on the way may lose a
bit.
-/

namespace AfuBench

namespace SizeWord

def successor? (a : UInt32) : Option UInt32 :=
  if a.toNat + 1 < UInt32.size then some (a + 1) else none

def tripled? (a : UInt32) : Option UInt32 :=
  if a.toNat * 3 < UInt32.size then some (a * 3) else none

def doubled? (a : UInt32) : Option UInt32 :=
  if a.toNat * 2 < UInt32.size then some (a <<< 1) else none

end SizeWord

namespace Capabilities

open SizeWord

def limitWord (c : Capabilities) : UInt32 :=
  UInt32.ofNat c.maxBurst

def nextSweepWord? (c : Capabilities) (size : UInt32) : Option UInt32 :=
  if c.natural then doubled? size
  else if size < 4 ∨ size = c.limitWord then successor? size
  else do
    let larger ← successor? (← tripled? size)
    return if larger ≤ c.limitWord then larger else c.limitWord

def nextBandwidthWord? (c : Capabilities) (size : UInt32) : Option UInt32 :=
  if c.natural ∨ 4 ≤ size then doubled? size else successor? size

end Capabilities

inductive SizeLoop (next? : UInt32 → Option UInt32) (max : UInt32) : UInt32 → List UInt32 → Prop where
  | past {size : UInt32} (hsize : max < size) : SizeLoop next? max size []
  | visit {size larger : UInt32} {sizes : List UInt32} (hsize : size ≤ max)
      (hlarger : next? size = some larger) (hrest : SizeLoop next? max larger sizes) :
      SizeLoop next? max size (size :: sizes)

end AfuBench
