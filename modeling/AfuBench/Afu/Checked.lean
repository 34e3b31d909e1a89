import AfuBench.Afu.Device
import AfuBench.Blocks
/-!
The simulated device word by word. Memories are rows of words, cut into lines where a run needs
them, and every step that can stop the program is checked. Such a stop is no error that an access
answers.
-/

namespace AfuBench

inductive Trap where
  | overflow (n : Nat)
  | capacity (bytes : Nat)
  | index (e : OutOfBounds)
  | emptyBlocks
  | copyLength (target source : Nat)
  | zeroDivisor
  | shiftAmount (bits : Nat)
  deriving DecidableEq, Repr

abbrev Checked := Except Trap

namespace Checked

variable {α : Type}

def count (n : Nat) : Checked Nat :=
  if n < UInt64.size then .ok n else .error (.overflow n)

def item (xs : List α) (i : Nat) : Checked α :=
  match xs[i]? with
  | some x => .ok x
  | none => .error (.index ⟨xs.length, i⟩)

def replace (xs : List α) (i : Nat) (x : α) : Checked (List α) :=
  if i < xs.length then .ok (xs.set i x) else .error (.index ⟨xs.length, i⟩)

def bit (w : UInt64) (i : Nat) : Checked Bool :=
  if i < 64 then .ok (Word.bit w i) else .error (.shiftAmount i)

def singleBit (i : Nat) : Checked UInt64 :=
  if i < 64 then .ok (Word.ofBit true i) else .error (.shiftAmount i)

def quotient (n d : Nat) : Checked Nat :=
  if d = 0 then .error .zeroDivisor else .ok (n / d)

def blocks (size : Nat) (xs : List α) : Checked (List (List α)) :=
  if size = 0 then .error .emptyBlocks else .ok (Blocks.whole size xs)

def copy (target source : List α) : Checked (List α) :=
  if target.length = source.length then .ok source
  else .error (.copyLength target.length source.length)

/-- A memory is refused from 2^63 bytes on, long before its bytes outgrow a word. -/
def grow (words : Nat) (memory : List UInt64) : Checked (List UInt64) :=
  if words ≤ memory.length then .ok memory
  else if 8 * words < UInt64.size / 2 then .ok (memory ++ List.replicate (words - memory.length) 0)
  else .error (.capacity (8 * words))

end Checked

structure CheckedEngine where
  /-- All but the memory; the lines in it are not used. -/
  state : Engine
  memory : List UInt64
  deriving DecidableEq, Repr

namespace CheckedEngine

def idle : CheckedEngine :=
  ⟨.idle, []⟩

def stream (c : CheckedEngine) : Checked CheckedEngine := do
  let state := c.state.stream
  let _ ← Checked.count state.readBursts
  let _ ← Checked.count state.readLines
  let _ ← Checked.count state.writeLines
  return { c with state }

def tick (c : CheckedEngine) : Checked CheckedEngine :=
  if c.state.streaming then c.stream else .ok { c with state := c.state.tick }

def fill (g : Generator) : Nat → List (List UInt64) → Checked (List (List UInt64))
  | 0, lines => .ok lines
  | _ + 1, [] => .ok []
  | n + 1, line :: lines => do
    let line ← Checked.copy line g.data
    let lines ← fill g.advance n lines
    return line :: lines

def flipFirst (memory : List UInt64) : Checked (List UInt64) := do
  let word ← Checked.item memory 0
  Checked.replace memory 0 (word ^^^ 1)

def spoil (corrupt : Bool) (lines : Nat) (memory : List UInt64) : Checked (List UInt64) :=
  if corrupt ∧ 0 < lines then flipFirst memory else .ok memory

def writeRun (config : AfuConfig) (c : CheckedEngine) :
    Checked (CheckedEngine × Except DataError Nat) := do
  if c.state.writing.enabled then
    let lines := c.state.writing.lines
    let memory ← Checked.grow (lines * config.lineWords) c.memory
    match Generator.new config.caps.width c.state.seed with
    | .error e => return ({ c with memory }, .error e)
    | .ok g =>
      let blocks ← Checked.blocks config.lineWords memory
      let rest := memory.drop (config.lineWords * blocks.length)
      let filled ← fill g lines blocks
      let memory ← spoil c.state.corrupt lines (filled.flatten ++ rest)
      return (⟨{ c.state with writeLines := lines }, memory⟩, .ok lines)
  else return (c, .ok 0)

def readRun (config : AfuConfig) (c : CheckedEngine) :
    Checked (CheckedEngine × Except DataError Nat) := do
  if c.state.reading.enabled then
    let lines := c.state.reading.lines
    let memory ← Checked.grow (lines * config.lineWords) c.memory
    let c := { c with memory }
    match Checker.new config.caps.width with
    | .error e => return (c, .error e)
    | .ok checker =>
      let blocks ← Checked.blocks config.lineWords memory
      match (blocks.take lines).foldlM Checker.update checker with
      | .error e => return (c, .error e)
      | .ok checker =>
        let state := { c.state with
          readHash := checker.value
          readBursts := c.state.reading.count
          readLines := lines }
        return ({ c with state }, .ok lines)
  else return (c, .ok 0)

def finish (config : AfuConfig) (c : CheckedEngine) :
    Checked (CheckedEngine × Except DataError Nat) := do
  match ← c.writeRun config with
  | (c, .error e) => return (c, .error e)
  | (c, .ok written) =>
    match ← c.readRun config with
    | (c, .error e) => return (c, .error e)
    | (c, .ok read) =>
      return ({ c with state := { c.state with busy := config.busyPolls } }, .ok (written + read))

def start (config : AfuConfig) (c : CheckedEngine) :
    Checked (CheckedEngine × Except DataError Nat) := do
  let c := { c with state := c.state.begin }
  if c.state.unlimited then
    let streaming ← stream { c with state := { c.state with streaming := true } }
    return (streaming, .ok c.state.burstLines)
  else c.finish config

end CheckedEngine

structure CheckedAfu where
  config : AfuConfig
  engines : List CheckedEngine
  globals : List UInt64
  enabled : UInt64
  cycles : Nat
  deriving DecidableEq, Repr

namespace CheckedAfu

def new (config : AfuConfig) : CheckedAfu where
  config := config.clamp
  engines := List.replicate config.clamp.engines .idle
  globals := config.testLow :: config.testHigh :: List.replicate 14 0
  enabled := 0
  cycles := 0

def setStalled (eng : Nat) (on : Bool) (c : CheckedAfu) : CheckedAfu :=
  { c with engines := c.engines.modify eng fun e =>
      { e with state := { e.state with stalled := on } } }

def setCorrupt (eng : Nat) (on : Bool) (c : CheckedAfu) : CheckedAfu :=
  { c with engines := c.engines.modify eng fun e =>
      { e with state := { e.state with corrupt := on } } }

def allEngines (c : CheckedAfu) : Checked UInt64 := do
  return (← Checked.singleBit c.engines.length) - 1

def activeBit (i : Nat) (e : CheckedEngine) : Checked UInt64 :=
  if e.state.active then Checked.singleBit i else .ok 0

def maskFrom : Nat → List CheckedEngine → Checked UInt64
  | _, [] => .ok 0
  | i, e :: es => do
    let own ← activeBit i e
    let others ← maskFrom (i + 1) es
    return own ||| others

def addLines (lines : Nat) (c : CheckedAfu) : Checked CheckedAfu := do
  let cycles ← Checked.count (c.cycles + lines * c.config.cyclesPerLine)
  return { c with cycles }

def tick (c : CheckedAfu) : Checked CheckedAfu := do
  let lines := c.engines.foldr (fun e lines => e.state.tickLines + lines) 0
  let engines ← c.engines.mapM CheckedEngine.tick
  { c with engines }.addLines lines

def startFrom (mask : UInt64) : Nat → Nat → CheckedAfu → Checked (Option DataError × CheckedAfu)
  | 0, _, c => .ok (none, c)
  | left + 1, eng, c => do
    if (← Checked.bit mask eng) && !(← Checked.bit c.enabled eng) then
      let (e, answer) ← (← Checked.item c.engines eng).start c.config
      let c := { c with engines := ← Checked.replace c.engines eng e }
      match answer with
      | .error err => return (some err, c)
      | .ok lines => startFrom mask left (eng + 1) (← c.addLines lines)
    else startFrom mask left (eng + 1) c

def enable (mask : UInt64) (c : CheckedAfu) : Checked (Except AccessError Unit × CheckedAfu) := do
  let mask := mask &&& (← c.allEngines)
  let c := if c.enabled = 0 ∧ mask ≠ 0 then { c with cycles := 0 } else c
  match ← startFrom mask c.engines.length 0 c with
  | (some err, c) => return (.error (.data err), c)
  | (none, c) => return (.ok (), { c with enabled := c.enabled ||| mask })

def stopFrom (config : AfuConfig) (mask : UInt64) :
    Nat → List CheckedEngine → Checked (List CheckedEngine)
  | _, [] => .ok []
  | i, e :: es => do
    let selected ← Checked.bit mask i
    let es ← stopFrom config mask (i + 1) es
    return (if selected then { e with state := e.state.stop config } else e) :: es

def disable (mask : UInt64) (c : CheckedAfu) : Checked CheckedAfu := do
  let engines ← stopFrom c.config mask 0 c.engines
  return { c with engines, enabled := c.enabled &&& ~~~mask }

def readEngine (c : CheckedAfu) (eng reg : Nat) : Checked UInt64 := do
  let e ← Checked.item c.engines eng
  return e.state.readRegister c.config (← Checked.bit c.enabled eng) reg

def referenceCycles (c : CheckedAfu) : Checked Nat := do
  Checked.quotient (← Checked.count (c.cycles * c.config.referenceMhz)) (max c.config.clockMhz 1)

def readWord (index : Nat) (c : CheckedAfu) : Checked (UInt64 × CheckedAfu) :=
  match Register.source c.engines.length index with
  | .header => return (Afu.header, c)
  | .idLow => return (c.config.idLow, c)
  | .idHigh => return (c.config.idHigh, c)
  | .configuration => return (Register.configWord c.engines.length c.config.referenceMhz, c)
  | .runMask => return (c.enabled, c)
  | .activeMask => return (← maskFrom 0 c.engines, ← c.tick)
  | .cycles => return (UInt64.ofNat c.cycles, c)
  | .referenceCycles => return (UInt64.ofNat (← c.referenceCycles), c)
  | .shared reg => return (← Checked.item c.globals reg, c)
  | .engine eng reg => return (← c.readEngine eng reg, c)
  | .unmapped => return (0, c)

def writeWord (index : Nat) (value : UInt64) (c : CheckedAfu) :
    Checked (Except AccessError Unit × CheckedAfu) :=
  match Register.target c.engines.length index with
  | .enable => c.enable value
  | .disable => return (.ok (), ← c.disable value)
  | .shared reg => return (.ok (), { c with globals := ← Checked.replace c.globals reg value })
  | .engine eng reg => do
    let e ← Checked.item c.engines eng
    let e := { e with state := e.state.writeRegister reg value }
    return (.ok (), { c with engines := ← Checked.replace c.engines eng e })
  | .readOnly => return (.error (.refused (8 * index) .readOnly), c)

def read (offset : Nat) (c : CheckedAfu) : Checked (Except AccessError UInt64 × CheckedAfu) := do
  if offset % 8 ≠ 0 then return (.error (.refused offset .unaligned), c)
  else
    let (value, c) ← c.readWord (offset / 8)
    return (.ok value, c)

def write (offset : Nat) (value : UInt64) (c : CheckedAfu) :
    Checked (Except AccessError Unit × CheckedAfu) :=
  if offset % 8 ≠ 0 then return (.error (.refused offset .unaligned), c)
  else c.writeWord (offset / 8) value

def apply (c : CheckedAfu) : Afu.Operation → Checked CheckedAfu
  | .read offset => Prod.snd <$> c.read offset
  | .write offset value => Prod.snd <$> c.write offset value
  | .stall eng on => return c.setStalled eng on
  | .corrupt eng on => return c.setCorrupt eng on

def run (c : CheckedAfu) (ops : List Afu.Operation) : Checked CheckedAfu :=
  ops.foldlM apply c

end CheckedAfu

end AfuBench
