import AfuBench.Bench.Error
import AfuBench.Register.Capability

namespace AfuBench

structure AfuConfig where
  engines : Nat
  caps : Capabilities
  clockMhz : Nat
  referenceMhz : Nat
  /-- Reads of the active mask for which a finished engine stays active. -/
  busyPolls : Nat
  cyclesPerLine : Nat
  idHigh : UInt64
  idLow : UInt64
  testHigh : UInt64
  testLow : UInt64
  deriving DecidableEq, Repr

namespace AfuConfig

def standard : AfuConfig where
  engines := 2
  caps := ⟨64, 16, false, true, true⟩
  clockMhz := 250
  referenceMhz := 200
  busyPolls := 2
  cyclesPerLine := 10
  idHigh := 0x4a6fa2e77fd44c4b
  idLow := 0x9b5d11b0a6a8ba1f
  testHigh := 0x7a1a7e57
  testLow := 0x10ca1e11

def Valid (c : AfuConfig) : Prop :=
  c.caps.width ≠ 0 ∧ c.caps.width ≤ 255 ∧ c.caps.width % 8 = 0

instance (c : AfuConfig) : Decidable c.Valid :=
  inferInstanceAs (Decidable (_ ∧ _ ∧ _))

def validate (c : AfuConfig) : Except BenchError AfuConfig :=
  if c.Valid then .ok c else .error (.dataWidth c.caps.width)

def clamp (c : AfuConfig) : AfuConfig :=
  { c with engines := min c.engines 16 }

def lineWords (c : AfuConfig) : Nat :=
  c.caps.width / 8

end AfuConfig

end AfuBench
