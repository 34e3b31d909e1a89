import AfuBench.Afu.Engine
/-!
The simulated device. Time moves on only when the active mask is read: every such read is one tick.
-/

namespace AfuBench

structure Afu where
  config : AfuConfig
  engines : List Engine
  globals : List UInt64
  enabled : UInt64
  cycles : Nat
  deriving DecidableEq, Repr

namespace Afu

def new (config : AfuConfig) : Afu where
  config := config.clamp
  engines := List.replicate config.clamp.engines .idle
  globals := config.testLow :: config.testHigh :: List.replicate 14 0
  enabled := 0
  cycles := 0

def setStalled (eng : Nat) (on : Bool) (a : Afu) : Afu :=
  { a with engines := a.engines.modify eng fun e => { e with stalled := on } }

def setCorrupt (eng : Nat) (on : Bool) (a : Afu) : Afu :=
  { a with engines := a.engines.modify eng fun e => { e with corrupt := on } }

def allEngines (a : Afu) : UInt64 :=
  Word.ofBit true a.engines.length - 1

def maskFrom (select : Engine → Bool) : Nat → List Engine → UInt64
  | _, [] => 0
  | i, e :: es => Word.ofBit (select e) i ||| maskFrom select (i + 1) es

def activeMask (a : Afu) : UInt64 :=
  maskFrom Engine.active 0 a.engines

def addLines (lines : Nat) (a : Afu) : Afu :=
  { a with cycles := a.cycles + lines * a.config.cyclesPerLine }

def tick (a : Afu) : Afu :=
  { a with engines := a.engines.map Engine.tick }.addLines
    (a.engines.foldr (fun e lines => Engine.tickLines e + lines) 0)

def startFrom (config : AfuConfig) (select : Nat → Bool) :
    Nat → List Engine → List Engine × Nat × Option DataError
  | _, [] => ([], 0, none)
  | i, e :: es =>
    if select i then
      match e.start config with
      | (e, .ok lines) =>
        let (es, more, err) := startFrom config select (i + 1) es
        (e :: es, lines + more, err)
      | (e, .error err) => (e :: es, 0, some err)
    else
      let (es, more, err) := startFrom config select (i + 1) es
      (e :: es, more, err)

def enable (mask : UInt64) (a : Afu) : Except AccessError Unit × Afu :=
  let mask := mask &&& a.allEngines
  let a := if a.enabled = 0 ∧ mask ≠ 0 then { a with cycles := 0 } else a
  let (engines, lines, err) :=
    startFrom a.config (fun i => Word.bit mask i && !Word.bit a.enabled i) 0 a.engines
  let a := { a with engines }.addLines lines
  match err with
  | none => (.ok (), { a with enabled := a.enabled ||| mask })
  | some err => (.error (.data err), a)

def disable (mask : UInt64) (a : Afu) : Afu :=
  { a with
    engines := a.engines.mapIdx fun i e => if Word.bit mask i then e.stop a.config else e
    enabled := a.enabled &&& ~~~mask }

def referenceCycles (a : Afu) : Nat :=
  a.cycles * a.config.referenceMhz / max a.config.clockMhz 1

def header : UInt64 := 0x1000000000001000

def readEngine (a : Afu) (eng reg : Nat) : UInt64 :=
  match a.engines[eng]? with
  | some e => e.readRegister a.config (Word.bit a.enabled eng) reg
  | none => 0

def readWord (index : Nat) (a : Afu) : UInt64 × Afu :=
  match Register.source a.engines.length index with
  | .header => (header, a)
  | .idLow => (a.config.idLow, a)
  | .idHigh => (a.config.idHigh, a)
  | .configuration => (Register.configWord a.engines.length a.config.referenceMhz, a)
  | .runMask => (a.enabled, a)
  | .activeMask => (a.activeMask, a.tick)
  | .cycles => (UInt64.ofNat a.cycles, a)
  | .referenceCycles => (UInt64.ofNat a.referenceCycles, a)
  | .shared reg => (a.globals.getD reg 0, a)
  | .engine eng reg => (a.readEngine eng reg, a)
  | .unmapped => (0, a)

def writeWord (index : Nat) (value : UInt64) (a : Afu) : Except AccessError Unit × Afu :=
  match Register.target a.engines.length index with
  | .enable => a.enable value
  | .disable => (.ok (), a.disable value)
  | .shared reg => (.ok (), { a with globals := a.globals.set reg value })
  | .engine eng reg =>
    (.ok (), { a with engines := a.engines.modify eng (Engine.writeRegister reg value) })
  | .readOnly => (.error (.refused (8 * index) .readOnly), a)

def read (offset : Nat) (a : Afu) : Except AccessError UInt64 × Afu :=
  if offset % 8 ≠ 0 then (.error (.refused offset .unaligned), a)
  else
    let (value, a) := a.readWord (offset / 8)
    (.ok value, a)

def write (offset : Nat) (value : UInt64) (a : Afu) : Except AccessError Unit × Afu :=
  if offset % 8 ≠ 0 then (.error (.refused offset .unaligned), a)
  else a.writeWord (offset / 8) value

instance : Bus Afu where
  read := read
  write := write

inductive Operation where
  | read (offset : Nat)
  | write (offset : Nat) (value : UInt64)
  | stall (eng : Nat) (on : Bool)
  | corrupt (eng : Nat) (on : Bool)
  deriving DecidableEq, Repr

def apply (a : Afu) : Operation → Afu
  | .read offset => (a.read offset).2
  | .write offset value => (a.write offset value).2
  | .stall eng on => a.setStalled eng on
  | .corrupt eng on => a.setCorrupt eng on

def run (a : Afu) (ops : List Operation) : Afu :=
  ops.foldl apply a

def Reachable (config : AfuConfig) (a : Afu) : Prop :=
  ∃ ops, a = (new config).run ops

end Afu

end AfuBench
