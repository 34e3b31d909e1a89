import AfuBench.Afu.Device
import AfuBench.Bench.LocalMemory
import AfuBench.Bench.Settings
import AfuBench.CommandLine.Command
import AfuBench.Files.Tools

namespace AfuBench

namespace Tool

def demand (passed : Bool) (e : ToolError) : Tool Unit :=
  if passed then return else throw e

def runCheck (o : CheckOptions) : Tool Unit := do
  match o.atomicBits, o.base with
  | some bits, _ =>
    let some width := Atomic.Width.ofBits? bits | throw (.atomicWidth bits)
    let some writeBack := o.writeBack | throw .noWriteBack
    demand (← checkAtomic o.dump writeBack width o.updates) .atomicFailed
  | none, some base =>
    let some lineCount := o.lineCount | throw .noLineCount
    demand (← checkWritten o.dump base lineCount) .linesFailed
  | none, none =>
    if o.lines then
      let _ ← lineHash o.dump o.burstSize
    else demand (← checkDump o.dump o.bytes o.seed) .dumpDiffers

def onDevice {σ α : Type} (p : Bench σ α) (device : σ) : Tool α := do
  let w ← get
  let (result, session) := p.run.run ⟨device, w.console⟩
  set { w with console := session.console }
  orFail .bench result

def simulatedConfig (o : SweepOptions) : AfuConfig :=
  let standard := AfuConfig.standard
  { standard with
    engines := o.engines
    caps := { standard.caps with width := o.width, maxBurst := o.maxBurst, natural := o.natural } }

def simulatedDevice (o : SweepOptions) (config : AfuConfig) : Afu :=
  let stalled := match o.stalled with
    | some eng => (Afu.new config).setStalled eng true
    | none => Afu.new config
  match o.corrupt with
  | some eng => stalled.setCorrupt eng true
  | none => stalled

def settings (o : SweepOptions) : Settings :=
  let s := Settings.new o.simulation
  let s := match o.intervalMs with
    | some ms => s.withInterval ms
    | none => s
  let s := match o.maxTrips with
    | some n => s.withMaxTrips n
    | none => s
  match o.runMs with
  | some ms => s.withRunTime ms
  | none => s

def identifyAndTest (limit : Nat) : Bench Afu SweepStats := do
  let (high, low) ← Bench.deviceId
  Bench.printLine ("AFU ID: " ++ hexWordFull high ++ hexWordFull low)
  Bench.localMemoryTest limit

def runSweep (o : SweepOptions) : Tool Unit := do
  let config ← orFail .bench (simulatedConfig o).validate
  let device := simulatedDevice o config
  let settings := settings o
  printLine ("Simulated AFU: " ++ decimal device.config.engines ++ " engines, " ++
    decimal device.config.clockMhz ++ " MHz" ++ if settings.simulation then " (ASE timing)" else "")
  let stats ← onDevice (identifyAndTest settings.maxTrips) device
  stats.report.forM printLine
  demand (stats.failed = 0) (.runsFailed stats.failed)

def runCommand : Command → Tool Unit
  | .generate bytes seed count dump => do
    let _ ← generate bytes seed count dump
  | .check options => runCheck options
  | .verify golden => do
    let count ← verify golden
    demand (count = 0) (.goldenFailed count)
  | .sweep options => runSweep options

end Tool

structure Outcome where
  code : Nat
  out : List String
  err : List String
  deriving DecidableEq, Repr

namespace Outcome

def causeLines : List String → List String
  | [] => []
  | causes => "" :: "Caused by:" :: causes.map ("    " ++ ·)

def errorLines (e : ToolError) : List String :=
  match e.messages with
  | [] => []
  | message :: causes => ("Error: " ++ message) :: causeLines causes

def ofArguments (args : List String) (files : FileStore) : Outcome × FileStore :=
  match Command.parse args with
  | .error .usage => (⟨2, [], []⟩, files)
  | .error .help => (⟨0, [], []⟩, files)
  | .ok command =>
    match (Tool.runCommand command).exec files with
    | (.ok (), w) => (⟨0, w.console.lines, []⟩, w.files)
    | (.error e, w) => (⟨1, w.console.lines, errorLines e⟩, w.files)

end Outcome

end AfuBench
