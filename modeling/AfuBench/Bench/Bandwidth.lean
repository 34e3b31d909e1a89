import AfuBench.Bench.Sweep
import AfuBench.Decimal.Fixed

namespace AfuBench

def gigabytesPerSecond (width : Nat) (lines : UInt64) (mhz : Float) (cycles : UInt64) : Float :=
  if cycles = 0 then 0.0
  else (UInt64.ofNat width).toFloat * lines.toFloat * mhz / (1000.0 * cycles.toFloat)

structure EngineBandwidth where
  eng : Nat
  read : Float
  write : Float

def EngineBandwidth.line (b : EngineBandwidth) (mode : Mode) : String :=
  let intro := "  [eng " ++ decimal b.eng ++ "] "
  match mode with
  | .read => intro ++ "Read GB/s:  " ++ Decimal.fixed 6 b.read
  | .write => intro ++ "Write GB/s: " ++ Decimal.fixed 6 b.write
  | .readWrite =>
    intro ++ "R+W GB/s:   " ++ Decimal.fixed 6 (b.read + b.write) ++ " (read " ++
      Decimal.fixed 6 b.read ++ ", write " ++ Decimal.fixed 6 b.write ++ ")"

def selected (mask : UInt64) (caps : List Capabilities) : List (Nat × Capabilities) :=
  (caps.zipIdx.filter fun (_, eng) => Word.bit mask eng).map fun (c, eng) => (eng, c)

namespace Bench

variable {σ : Type} [Bus σ]

def setUnlimited (size : Nat) (mode : Mode) (eng : Nat) : Bench σ Unit := do
  writeEngine eng Register.readTraffic (Burst.toWord ⟨mode.reads, 0, size⟩)
  writeEngine eng Register.writeTraffic (Burst.toWord ⟨mode.writes, 0, size⟩)
  writeEngine eng Register.seed (UInt64.ofNat eng)

def knownClock (mhz : Float) : Bench σ Float := do
  if mhz == 0.0 then
    let mhz ← clockMhz
    printLine ("  AFU clock is " ++ Decimal.fixed 1 mhz ++ " MHz")
    return mhz
  else return mhz

def measure (mode : Mode) (mhz : Float) (cycles : UInt64) (eng : Nat) (caps : Capabilities) :
    Bench σ EngineBandwidth := do
  let readLines ← readEngine eng Register.readLines
  let writeLines ← readEngine eng Register.writeLines
  if readLines = 0 ∧ writeLines = 0 then
    printLine "  FAIL: no memory traffic detected!"
    throw (.noTraffic eng)
  let result : EngineBandwidth :=
    ⟨eng, gigabytesPerSecond caps.width readLines mhz cycles,
      gigabytesPerSecond caps.width writeLines mhz cycles⟩
  printLine (result.line mode)
  return result

def bandwidth (mask : UInt64) (caps : List Capabilities) (size : Nat) (mode : Mode) (limit : Nat)
    (mhz : Float) : Bench σ (Float × List EngineBandwidth) := do
  let engines := selected mask caps
  engines.forM fun (eng, _) => setUnlimited size mode eng
  enable mask
  let _ ← waitStarted limit
  disable mask
  let _ ← waitIdle limit
  let mhz ← knownClock mhz
  let cycles ← clockCycles
  let results ← engines.mapM fun (eng, c) => measure mode mhz cycles eng c
  return (mhz, results)

end Bench

end AfuBench
