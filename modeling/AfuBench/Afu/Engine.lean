import AfuBench.Afu.Config
import AfuBench.Register.Burst
import AfuBench.Register.Map
import AfuBench.TestData.Checker

namespace AfuBench

structure Engine where
  readWord : UInt64
  writeWord : UInt64
  seed : UInt64
  /-- Local memory, line by line, as far as it was written or read. -/
  memory : List (List UInt64)
  readBursts : Nat
  readLines : Nat
  writeLines : Nat
  readHash : UInt64
  /-- Ticks until a finished run goes idle. -/
  busy : Nat
  streaming : Bool
  started : Bool
  /-- Accepts a start but does not finish. -/
  stalled : Bool
  /-- Flips a bit in the first line it writes. -/
  corrupt : Bool
  deriving DecidableEq, Repr

namespace Engine

def idle : Engine :=
  ⟨0, 0, 0, [], 0, 0, 0, 0, 0, false, false, false, false⟩

def reading (e : Engine) : Burst :=
  .ofWord e.readWord

def writing (e : Engine) : Burst :=
  .ofWord e.writeWord

def active (e : Engine) : Bool :=
  e.streaming || 0 < e.busy || (e.stalled && e.started)

def burstLines (e : Engine) : Nat :=
  e.reading.burstLines + e.writing.burstLines

def stream (e : Engine) : Engine :=
  { e with
    readBursts := e.readBursts + e.reading.enabled.toNat
    readLines := e.readLines + e.reading.burstLines
    writeLines := e.writeLines + e.writing.burstLines }

def tick (e : Engine) : Engine :=
  if e.streaming then e.stream else { e with busy := e.busy - 1 }

def tickLines (e : Engine) : Nat :=
  if e.streaming then e.burstLines else 0

def begin (e : Engine) : Engine :=
  { e with started := true, readBursts := 0, readLines := 0, writeLines := 0 }

def unlimited (e : Engine) : Bool :=
  e.reading.unlimited || e.writing.unlimited

def flipFirst : List (List UInt64) → List (List UInt64)
  | (w :: ws) :: lines => ((w ^^^ 1) :: ws) :: lines
  | lines => lines

def writtenLines (words : Nat) (e : Engine) : List (List UInt64) :=
  let lines := vectors e.seed words e.writing.lines
  if e.corrupt then flipFirst lines else lines

def writeRun (words : Nat) (e : Engine) : Engine :=
  if e.writing.enabled then
    { e with
      memory := e.writtenLines words ++ e.memory.drop e.writing.lines
      writeLines := e.writing.lines }
  else e

def firstLines (words count : Nat) (e : Engine) : List (List UInt64) :=
  e.memory.take count ++ List.replicate (count - e.memory.length) (List.replicate words 0)

def grown (words count : Nat) (memory : List (List UInt64)) : List (List UInt64) :=
  memory ++ List.replicate (count - memory.length) (List.replicate words 0)

def readRun (words : Nat) (e : Engine) : Engine :=
  if e.reading.enabled then
    { e with
      memory := grown words e.reading.lines e.memory
      readHash := streamHash words (e.firstLines words e.reading.lines)
      readBursts := e.reading.count
      readLines := e.reading.lines }
  else e

def finiteRun (busyPolls words : Nat) (e : Engine) : Engine :=
  { (e.writeRun words).readRun words with busy := busyPolls }

def start (config : AfuConfig) (e : Engine) : Engine × Except DataError Nat :=
  let e := e.begin
  if e.unlimited then
    ({ e with streaming := true }.stream, .ok e.burstLines)
  else if e.reading.enabled ∨ e.writing.enabled then
    match wordCount config.caps.width with
    | .ok words =>
      (e.finiteRun config.busyPolls words, .ok (e.writing.lines + e.reading.lines))
    | .error err => (e, .error err)
  else ({ e with busy := config.busyPolls }, .ok 0)

def stop (config : AfuConfig) (e : Engine) : Engine :=
  if e.streaming then { e with streaming := false, busy := config.busyPolls } else e

def status (config : AfuConfig) (running : Bool) (e : Engine) : UInt64 :=
  statusWord config.caps ⟨!e.started, running, e.active, e.stalled⟩

def readRegister (config : AfuConfig) (running : Bool) (e : Engine) (reg : Nat) : UInt64 :=
  if reg = Register.status then e.status config running
  else if reg = Register.readBursts then UInt64.ofNat e.readBursts
  else if reg = Register.readLines then UInt64.ofNat e.readLines
  else if reg = Register.writeLines then UInt64.ofNat e.writeLines
  else if reg = Register.readHash then e.readHash
  else 0

def writeRegister (reg : Nat) (value : UInt64) (e : Engine) : Engine :=
  if reg = Register.readTraffic then { e with readWord := value }
  else if reg = Register.writeTraffic then { e with writeWord := value }
  else if reg = Register.seed then { e with seed := value }
  else e

end Engine

end AfuBench
