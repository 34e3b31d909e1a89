import AfuBench.TestData.Error
/-!
Access to the registers of a device by byte offset. A read may move the device on, so both
accesses take the device to a new state.
-/

namespace AfuBench

inductive Refusal where
  | unaligned
  | readOnly
  | busError
  deriving DecidableEq, Repr

def Refusal.message : Refusal → String
  | .unaligned => "unaligned 64-bit access"
  | .readOnly => "write to read-only register"
  | .busError => "bus error"

inductive AccessError where
  | refused (offset : Nat) (reason : Refusal)
  | data (e : DataError)
  deriving DecidableEq, Repr

class Bus (σ : Type) where
  read : Nat → σ → Except AccessError UInt64 × σ
  write : Nat → UInt64 → σ → Except AccessError Unit × σ

end AfuBench
