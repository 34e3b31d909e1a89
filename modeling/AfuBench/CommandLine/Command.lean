import AfuBench.CommandLine.Arguments

namespace AfuBench

structure CheckOptions where
  dump : String
  bytes : Nat
  seed : UInt64
  lines : Bool
  burstSize : Nat
  base : Option UInt64
  lineCount : Option Nat
  atomicBits : Option Nat
  writeBack : Option String
  updates : Nat
  deriving DecidableEq, Repr

structure SweepOptions where
  engines : Nat
  width : Nat
  maxBurst : Nat
  natural : Bool
  simulation : Bool
  intervalMs : Option Nat
  maxTrips : Option Nat
  runMs : Option Nat
  stalled : Option Nat
  corrupt : Option Nat
  deriving DecidableEq, Repr

inductive Command where
  | generate (bytes : Nat) (seed : UInt64) (count : Nat) (dump : Option String)
  | check (options : CheckOptions)
  | verify (golden : String)
  | sweep (options : SweepOptions)
  deriving DecidableEq, Repr

namespace Command

open Arguments

def generateSpecs : List OptionSpec :=
  [long .wide "bytes", long .literal "seed", long .wide "count", long .text "dump"]

def checkSpecs : List OptionSpec :=
  [⟨"dump", some 'd', .text⟩, long .wide "bytes", long .literal "seed", long .flag "lines",
    long .wide "burst-size", long .literal "iova", long .wide "num-lines", long .narrow "atomic",
    long .text "wb", long .wide "num-updates"]

def verifySpecs : List OptionSpec :=
  [⟨"golden", some 'g', .text⟩]

def sweepSpecs : List OptionSpec :=
  [long .narrow "engines", long .narrow "width", long .narrow "max-burst",
    long .flag "natural-bursts", long .flag "ase", long .wide "poll-ms", long .narrow "max-polls",
    long .wide "run-ms", long .narrow "stall", long .narrow "corrupt"]

def standardSeed : UInt64 := 0xf00

def ofGenerate (g : Given) : Command :=
  .generate ((g.number? "bytes").getD 64) ((g.word? "seed").getD standardSeed)
    ((g.number? "count").getD 1) (g.text? "dump")

def ofCheck (g : Given) : Except Reply Command := do
  return .check
    { dump := ← g.required "dump"
      bytes := (g.number? "bytes").getD 64
      seed := (g.word? "seed").getD standardSeed
      lines := g.isGiven "lines"
      burstSize := (g.number? "burst-size").getD 1
      base := g.word? "iova"
      lineCount := g.number? "num-lines"
      atomicBits := g.number? "atomic"
      writeBack := g.text? "wb"
      updates := (g.number? "num-updates").getD 251 }

def ofVerify (g : Given) : Except Reply Command := do
  return .verify (← g.required "golden")

def ofSweep (g : Given) : Command :=
  .sweep
    { engines := (g.number? "engines").getD 2
      width := (g.number? "width").getD 64
      maxBurst := (g.number? "max-burst").getD 16
      natural := g.isGiven "natural-bursts"
      simulation := g.isGiven "ase"
      intervalMs := g.number? "poll-ms"
      maxTrips := g.number? "max-polls"
      runMs := g.number? "run-ms"
      stalled := g.number? "stall"
      corrupt := g.number? "corrupt" }

def helpOn : List String → Reply
  | [] => .help
  | [name] => if name ∈ ["gen", "check", "verify", "sweep", "help"] then .help else .usage
  | _ => .usage

def parse : List String → Except Reply Command
  | [] => .error .usage
  | name :: args =>
    if name = "gen" then (scan generateSpecs args []).map ofGenerate
    else if name = "check" then (scan checkSpecs args []).bind ofCheck
    else if name = "verify" then (scan verifySpecs args []).bind ofVerify
    else if name = "sweep" then (scan sweepSpecs args []).map ofSweep
    else if name = "help" then .error (helpOn args)
    else match option [] name.toList with
      | .error reply => .error reply
      | .ok _ => .error .usage

def paths : Command → List String
  | .generate _ _ _ dump => dump.toList
  | .check options => options.dump :: options.writeBack.toList
  | .verify golden => [golden]
  | .sweep _ => []

end Command

end AfuBench
