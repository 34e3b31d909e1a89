import AfuBench.Bench.Bandwidth

namespace AfuBench.Bench

variable {σ : Type} [Bus σ]

def discover (eng : Nat) : Bench σ Capabilities := do
  let caps := Capabilities.ofWord (← readEngine eng Register.status)
  (caps.describe eng).forM printLine
  return caps

def sweepEngines (limit : Nat) : Nat → List Capabilities → SweepStats → Bench σ (SweepStats × Bool)
  | _, [], stats => return (stats, true)
  | eng, caps :: rest, stats => do
    let result ← sweep eng caps limit
    if 0 < result.failed then return (stats.merge result, false)
    else sweepEngines limit (eng + 1) rest (stats.merge result)

def bandwidthModes : List Mode := [.read, .write, .readWrite]

def bandwidthAt (mask : UInt64) (caps : List Capabilities) (limit : Nat) (mhz : Float)
    (size : Nat) : Bench σ Float := do
  printLine ""
  printLine ("Testing burst size " ++ decimal size ++ ":")
  bandwidthModes.foldlM (fun mhz mode => do
    return (← bandwidth mask caps size mode limit mhz).1) mhz

/-- The burst limits of the first engine are taken to hold for all. -/
def bandwidthAll (caps : List Capabilities) (limit : Nat) : Bench σ Unit :=
  match caps with
  | [] => return
  | first :: _ => do
    let mask := Word.ofBit true caps.length - 1
    let _ ← first.bandwidthSizes.foldlM (bandwidthAt mask caps limit) 0.0

def localMemoryTest (limit : Nat) : Bench σ SweepStats := do
  let idHigh ← readGlobal 1
  let idLow ← readGlobal 0
  printLine ("Test ID: " ++ hexWordFull idHigh ++ " " ++ hexWordFull idLow)
  let engines ← engineCount
  printLine ("Engines: " ++ decimal engines)
  let caps ← (List.range engines).mapM discover
  printLine ""
  let (stats, clean) ← sweepEngines limit 0 caps .empty
  if clean then bandwidthAll caps limit
  return stats

end AfuBench.Bench
