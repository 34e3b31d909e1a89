import AfuBench.Word

namespace AfuBench

structure Burst where
  enabled : Bool
  count : Nat
  size : Nat
  deriving DecidableEq, Repr

namespace Burst

/-- The fields are packed as they are, not cut to the width they are read with. -/
def toWord (b : Burst) : UInt64 :=
  Word.ofBit b.enabled 48 ||| UInt64.ofNat b.count <<< 32 ||| UInt64.ofNat b.size

def ofWord (w : UInt64) : Burst where
  enabled := Word.bit w 48
  count := (w >>> 32 &&& 0xffff).toNat
  size := (w &&& 0xffff).toNat

def unlimited (b : Burst) : Bool :=
  b.enabled && b.count == 0

def lines (b : Burst) : Nat :=
  if b.enabled then b.count * b.size else 0

def burstLines (b : Burst) : Nat :=
  if b.enabled then b.size else 0

end Burst

end AfuBench
