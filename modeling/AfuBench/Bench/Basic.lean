import AfuBench.Bench.Error
import AfuBench.Console
import AfuBench.Register.Burst
import AfuBench.Register.Map

namespace AfuBench

structure Session (σ : Type) where
  device : σ
  console : Console
  deriving Repr

abbrev Bench (σ : Type) := ExceptT BenchError (StateM (Session σ))

theorem run_bind {σ ε α β : Type} (p : ExceptT ε (StateM σ) α) (k : α → ExceptT ε (StateM σ) β)
    (s : σ) :
    (p >>= k).run.run s =
      match p.run.run s with
      | (.ok a, t) => (k a).run.run t
      | (.error e, t) => (.error e, t) := by
  simp only [ExceptT.run, StateT.run, bind, ExceptT.bind, ExceptT.mk, StateT.bind,
    ExceptT.bindCont]
  rcases p s with ⟨r, t⟩
  cases r <;> rfl

namespace Bench

variable {σ α : Type}

def exec (p : Bench σ α) (device : σ) : Except BenchError α × Session σ :=
  p.run.run ⟨device, .empty⟩

def access (f : σ → Except AccessError α × σ) : Bench σ α :=
  ExceptT.mk fun s =>
    let (answer, device) := f s.device
    (answer.mapError .access, { s with device })

theorem run_access (f : σ → Except AccessError α × σ) (s : Session σ) :
    (access f).run.run s =
      ((f s.device).1.mapError BenchError.access, { s with device := (f s.device).2 }) :=
  rfl

def print (text : String) : Bench σ Unit :=
  modify fun s => { s with console := s.console.print text }

def printLine (text : String) : Bench σ Unit :=
  modify fun s => { s with console := s.console.printLine text }

def ofData (r : Except DataError α) : Bench σ α :=
  match r with
  | .ok a => return a
  | .error e => throw (.data e)

variable [Bus σ]

def read (index : Nat) : Bench σ UInt64 :=
  access (Bus.read (8 * index))

def write (index : Nat) (value : UInt64) : Bench σ Unit :=
  access (Bus.write (8 * index) value)

def deviceId : Bench σ (UInt64 × UInt64) := do
  let high ← read Register.idHigh
  let low ← read Register.idLow
  return (high, low)

def engineCount : Bench σ Nat := do
  return Register.configEngines (← read Register.configuration)

def clockCycles : Bench σ UInt64 :=
  read Register.cycles

def enable (mask : UInt64) : Bench σ Unit :=
  write Register.enableMask mask

def disable (mask : UInt64) : Bench σ Unit :=
  write Register.disableMask mask

def enabled : Bench σ UInt64 :=
  read Register.runMask

def active : Bench σ UInt64 :=
  read Register.activeMask

/-- The engine clock, derived from the known reference clock. It is zero while an engine is enabled
and before any cycles were counted. -/
def clockMhz : Bench σ Float := do
  if (← enabled) ≠ 0 then return 0.0
  let config ← read Register.configuration
  let cycles ← clockCycles
  let reference ← read Register.referenceCycles
  if cycles = 0 ∨ reference = 0 then return 0.0
  return (UInt64.ofNat (Register.configClock config)).toFloat *
    (cycles.toFloat / reference.toFloat)

def readGlobal (reg : Nat) : Bench σ UInt64 :=
  if Register.globalCount ≤ reg then throw (.registerIndex 0 reg)
  else read (Register.globalIndex reg)

def writeGlobal (reg : Nat) (value : UInt64) : Bench σ Unit :=
  if Register.globalCount ≤ reg then throw (.registerIndex 0 reg)
  else write (Register.globalIndex reg) value

def readEngine (eng reg : Nat) : Bench σ UInt64 :=
  if Register.maxEngines ≤ eng ∨ Register.perEngine ≤ reg then throw (.registerIndex eng reg)
  else read (Register.engineIndex eng reg)

def writeEngine (eng reg : Nat) (value : UInt64) : Bench σ Unit :=
  if Register.maxEngines ≤ eng ∨ Register.perEngine ≤ reg then throw (.registerIndex eng reg)
  else write (Register.engineIndex eng reg) value

end Bench

end AfuBench
