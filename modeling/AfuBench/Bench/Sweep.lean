import AfuBench.Bench.BurstSizes
import AfuBench.Bench.Poll
import AfuBench.Bench.Stats
import AfuBench.TestData.Checker

namespace AfuBench

inductive Mode where
  | write
  | read
  | readWrite
  deriving DecidableEq, Repr

namespace Mode

def reads : Mode → Bool
  | .write => false
  | .read => true
  | .readWrite => true

def writes : Mode → Bool
  | .write => true
  | .read => false
  | .readWrite => true

def label : Mode → String
  | .write => "Write:"
  | .read => "Read: "
  | .readWrite => "R+W:  "

end Mode

structure SweepPoint where
  size : Nat
  count : Nat
  expected : UInt64
  deriving DecidableEq, Repr

def burstCounts : List Nat := [1, 3, 7, 15]

def engineSeed (eng : Nat) : UInt64 :=
  0xf00 + UInt64.ofNat eng

def Capabilities.sweepGrid (c : Capabilities) : List (Nat × Nat) :=
  c.sweepSizes.flatMap fun size => burstCounts.map fun count => (size, count)

def sweepPoints (eng : Nat) (c : Capabilities) : Except DataError (List SweepPoint) :=
  c.sweepGrid.mapM fun (size, count) =>
    (expectedHash c.width (engineSeed eng) (count * size)).map fun expected =>
      ⟨size, count, expected⟩

def sweepRuns (points : List SweepPoint) : List (SweepPoint × Mode) :=
  points.flatMap fun point => [(point, .write), (point, .read), (point, .readWrite)]

namespace Bench

variable {σ : Type} [Bus σ]

def describeEngine (eng : Nat) : Bench σ Unit := do
  let activity := Activity.ofWord (← readEngine eng Register.status)
  printLine ("  Engine " ++ decimal eng ++ " state:")
  printLine ("    active: " ++ bitDigit activity.active)
  printLine ("    running: " ++ bitDigit activity.running)
  printLine ("    in reset: " ++ bitDigit activity.inReset)
  printLine ("    waitrequest: " ++ bitDigit activity.waitRequest)
  let readBursts ← readEngine eng Register.readBursts
  printLine ("    read burst requests: " ++ decimal readBursts.toNat)
  let readLines ← readEngine eng Register.readLines
  printLine ("    read line responses: " ++ decimal readLines.toNat)
  let writeLines ← readEngine eng Register.writeLines
  printLine ("    write line requests: " ++ decimal writeLines.toNat)

def describeHang (eng : Nat) : Bench σ Unit := do
  printLine " - HANG!"
  printLine ""
  let enabled ← enabled
  let active ← active
  printLine ("Aborting - enabled mask 0x" ++ hexWord enabled ++ ", active mask 0x" ++
    hexWord active)
  describeEngine eng

def awaitRun (eng limit : Nat) : Bench σ Nat :=
  tryCatch (waitDone (Word.ofBit true eng) limit) fun
    | .hang polls => do
      describeHang eng
      throw (.hang polls)
    | e => throw e

def runPoint (eng limit : Nat) (point : SweepPoint) (mode : Mode) : Bench σ Run := do
  print ("  " ++ mode.label ++ " " ++ padLeft 2 ' ' (decimal point.count) ++ " bursts of " ++
    padLeft 2 ' ' (decimal point.size) ++ " lines")
  writeEngine eng Register.readTraffic (Burst.toWord ⟨mode.reads, point.count, point.size⟩)
  writeEngine eng Register.writeTraffic (Burst.toWord ⟨mode.writes, point.count, point.size⟩)
  writeEngine eng Register.seed (engineSeed eng)
  enable (Word.ofBit true eng)
  let trips ← awaitRun eng limit
  disable (Word.ofBit true eng)
  let hash ← readEngine eng Register.readHash
  if mode.reads ∧ hash ≠ point.expected then
    printLine " - FAIL"
    printLine ("  0x" ++ hexWordFull hash ++ ", expected 0x" ++ hexWordFull point.expected)
    return ⟨false, true, trips⟩
  else
    printLine " - PASS"
    return ⟨true, mode.reads, trips⟩

def runPoints (eng limit : Nat) (runs : List (SweepPoint × Mode)) : Bench σ SweepStats :=
  runs.foldlM (fun stats (point, mode) => do
    return stats.record (← runPoint eng limit point mode)) .empty

def sweep (eng : Nat) (caps : Capabilities) (limit : Nat) : Bench σ SweepStats := do
  printLine ("Testing engine " ++ decimal eng ++ ", maximum burst size " ++
    decimal caps.maxBurst ++ ":")
  let points ← ofData (sweepPoints eng caps)
  runPoints eng limit (sweepRuns points)

end Bench

end AfuBench
