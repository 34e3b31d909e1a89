import AfuBench.Bench.Bandwidth
/-!
The engine clock as the bandwidth runs keep it: in a cell that the first run fills and the later
ones read. What a run puts there stays, also if the run fails afterwards.
-/

namespace AfuBench

namespace Bench

variable {σ : Type} [Bus σ]

def traffic (mask : UInt64) (caps : List Capabilities) (size : Nat) (mode : Mode) (limit : Nat) :
    Bench σ Unit := do
  (selected mask caps).forM fun (eng, _) => setUnlimited size mode eng
  enable mask
  let _ ← waitStarted limit
  disable mask
  let _ ← waitIdle limit

def measureAll (engines : List (Nat × Capabilities)) (mode : Mode) (mhz : Float) (cycles : UInt64) :
    Bench σ (List EngineBandwidth) :=
  engines.mapM fun (eng, c) => measure mode mhz cycles eng c

def figures (engines : List (Nat × Capabilities)) (mode : Mode) (mhz : Float) :
    Bench σ (Float × List EngineBandwidth) := do
  let mhz ← knownClock mhz
  let cycles ← clockCycles
  let results ← measureAll engines mode mhz cycles
  return (mhz, results)

theorem bandwidth_eq (mask : UInt64) (caps : List Capabilities) (size : Nat) (mode : Mode)
    (limit : Nat) (mhz : Float) :
    bandwidth (σ := σ) mask caps size mode limit mhz = (do
      traffic mask caps size mode limit
      figures (selected mask caps) mode mhz) := by
  simp only [bandwidth, traffic, figures, measureAll, bind_assoc, pure_bind]

end Bench

abbrev Clocked (σ : Type) := ExceptT BenchError (StateM (Session σ × Float))

namespace Clocked

variable {σ α β : Type}

def lift (p : Bench σ α) : Clocked σ α :=
  ExceptT.mk fun (s, mhz) =>
    let (answer, t) := p.run.run s
    (answer, t, mhz)

def clock : Clocked σ Float := do
  return (← get).2

def setClock (mhz : Float) : Clocked σ Unit :=
  modify fun (s, _) => (s, mhz)

theorem run_lift (p : Bench σ α) (s : Session σ) (mhz : Float) :
    (lift p).run.run (s, mhz) = ((p.run.run s).1, (p.run.run s).2, mhz) :=
  rfl

theorem run_lift_bind (p : Bench σ α) (k : α → Clocked σ β) (s : Session σ) (mhz : Float) :
    (lift p >>= k).run.run (s, mhz) =
      match p.run.run s with
      | (.ok x, t) => (k x).run.run (t, mhz)
      | (.error e, t) => (.error e, t, mhz) := by
  rw [run_bind, run_lift]
  rcases p.run.run s with ⟨r, t⟩
  cases r <;> rfl

variable [Bus σ]

def refreshClock : Clocked σ Unit := do
  if (← clock) == 0.0 then
    let mhz ← lift Bench.clockMhz
    setClock mhz
    lift (Bench.printLine ("  AFU clock is " ++ Decimal.fixed 1 mhz ++ " MHz"))

def bandwidth (mask : UInt64) (caps : List Capabilities) (size : Nat) (mode : Mode) (limit : Nat) :
    Clocked σ (List EngineBandwidth) := do
  lift (Bench.traffic mask caps size mode limit)
  refreshClock
  let cycles ← lift Bench.clockCycles
  let mhz ← clock
  lift (Bench.measureAll (selected mask caps) mode mhz cycles)

end Clocked

end AfuBench
