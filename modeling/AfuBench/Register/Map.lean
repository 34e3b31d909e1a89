/-!
The register map of a test device, in 64-bit words: control block, global registers, and sixteen
private registers for each engine. A word can mean one register to a read and another to a write.
-/

namespace AfuBench.Register

def maxEngines : Nat := 16

def perEngine : Nat := 16

def globalCount : Nat := 16

def engineBase : Nat := 0x400

def globalBase : Nat := 0x20

def header : Nat := 0
def idLow : Nat := 1
def idHigh : Nat := 2
def configuration : Nat := 0x10
def runMask : Nat := 0x11
def activeMask : Nat := 0x12
def cycles : Nat := 0x13
def referenceCycles : Nat := 0x14

/-- Written, the words of the configuration and the run mask enable and disable engines. -/
def enableMask : Nat := 0x10
def disableMask : Nat := 0x11

def engineIndex (eng reg : Nat) : Nat :=
  engineBase ||| eng <<< 4 ||| reg

def globalIndex (reg : Nat) : Nat :=
  globalBase + reg

theorem engineIndex_eq {eng reg : Nat} (he : eng < maxEngines) (hr : reg < perEngine) :
    engineIndex eng reg = 0x400 + 16 * eng + reg := by
  have h : ∀ e < 16, ∀ r < 16, engineIndex e r = 0x400 + 16 * e + r := by decide
  exact h eng he reg hr

def engineSlot? (engines index : Nat) : Option (Nat × Nat) :=
  if index < engineBase then none
  else if (index - engineBase) / perEngine < engines then
    some ((index - engineBase) / perEngine, index % perEngine)
  else none

inductive Source where
  | header
  | idLow
  | idHigh
  | configuration
  | runMask
  | activeMask
  | cycles
  | referenceCycles
  | shared (reg : Nat)
  | engine (eng reg : Nat)
  | unmapped
  deriving DecidableEq, Repr

inductive Target where
  | enable
  | disable
  | shared (reg : Nat)
  | engine (eng reg : Nat)
  | readOnly
  deriving DecidableEq, Repr

def source (engines index : Nat) : Source :=
  if index = header then .header
  else if index = idLow then .idLow
  else if index = idHigh then .idHigh
  else if index = configuration then .configuration
  else if index = runMask then .runMask
  else if index = activeMask then .activeMask
  else if index = cycles then .cycles
  else if index = referenceCycles then .referenceCycles
  else if globalBase ≤ index ∧ index < globalBase + globalCount then .shared (index - globalBase)
  else match engineSlot? engines index with
    | some (eng, reg) => .engine eng reg
    | none => .unmapped

def target (engines index : Nat) : Target :=
  if index = enableMask then .enable
  else if index = disableMask then .disable
  else if globalBase ≤ index ∧ index < globalBase + globalCount then .shared (index - globalBase)
  else match engineSlot? engines index with
    | some (eng, reg) => .engine eng reg
    | none => .readOnly

theorem engineSlot?_eq_some_iff {engines index eng reg : Nat} :
    engineSlot? engines index = some (eng, reg) ↔
      index = 0x400 + 16 * eng + reg ∧ eng < engines ∧ reg < perEngine := by
  unfold engineSlot? engineBase perEngine
  split
  · simp only [reduceCtorEq, false_iff]; omega
  · split
    · simp only [Option.some.injEq, Prod.mk.injEq]; omega
    · simp only [reduceCtorEq, false_iff]; omega

theorem source_of_globalBase_le {engines index : Nat} (h : globalBase ≤ index) :
    source engines index =
      if globalBase ≤ index ∧ index < globalBase + globalCount then .shared (index - globalBase)
      else match engineSlot? engines index with
        | some (eng, reg) => .engine eng reg
        | none => .unmapped := by
  have hne : ∀ n < globalBase, index ≠ n := fun n hn => Nat.ne_of_gt (Nat.lt_of_lt_of_le hn h)
  rw [source, if_neg (hne header (by decide)), if_neg (hne idLow (by decide)),
    if_neg (hne idHigh (by decide)), if_neg (hne configuration (by decide)),
    if_neg (hne runMask (by decide)), if_neg (hne activeMask (by decide)),
    if_neg (hne cycles (by decide)), if_neg (hne referenceCycles (by decide))]

theorem target_of_globalBase_le {engines index : Nat} (h : globalBase ≤ index) :
    target engines index =
      if globalBase ≤ index ∧ index < globalBase + globalCount then .shared (index - globalBase)
      else match engineSlot? engines index with
        | some (eng, reg) => .engine eng reg
        | none => .readOnly := by
  have hne : ∀ n < globalBase, index ≠ n := fun n hn => Nat.ne_of_gt (Nat.lt_of_lt_of_le hn h)
  rw [target, if_neg (hne enableMask (by decide)), if_neg (hne disableMask (by decide))]

def configWord (engines clockMhz : Nat) : UInt64 :=
  (UInt64.ofNat clockMhz &&& 0xffff) <<< 8 ||| (UInt64.ofNat engines &&& 0xff)

def configEngines (word : UInt64) : Nat :=
  (word &&& 0xff).toNat

def configClock (word : UInt64) : Nat :=
  (word >>> 8 &&& 0xffff).toNat

/-- Private registers as they are written. -/
def readTraffic : Nat := 0
def writeTraffic : Nat := 1
def seed : Nat := 2

/-- Private registers as they are read. -/
def status : Nat := 0
def readBursts : Nat := 1
def readLines : Nat := 2
def writeLines : Nat := 3
def readHash : Nat := 5

end AfuBench.Register
