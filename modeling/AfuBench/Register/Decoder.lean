import AfuBench.Register.Map

namespace AfuBench.Register

def indexWord (eng reg : UInt32) : UInt64 :=
  (0x400 : UInt64) ||| eng.toUInt64 <<< 4 ||| reg.toUInt64

def slotWord? (engines : Nat) (index : UInt64) : Option (Nat × Nat) :=
  if index < 0x400 then none
  else if ((index - 0x400) >>> 4).toNat < engines then
    some (((index - 0x400) >>> 4).toNat, (index &&& 0xf).toNat)
  else none

end AfuBench.Register
