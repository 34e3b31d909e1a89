import AfuBench.Proofs.RegisterAccess
import AfuBench.Register.Decoder
import Mathlib.Data.Set.Function

namespace AfuBench.Register

/-- A register by its name, which says nothing of its index. -/
inductive Name where
  | control (word : Nat)
  | shared (reg : Nat)
  | engine (eng reg : Nat)
  deriving DecidableEq, Repr

/-- The registers of the control block. A device reads and writes some of them differently. -/
def controlWords : List Nat :=
  [header, idLow, idHigh, configuration, runMask, activeMask, cycles, referenceCycles]

namespace Name

def index : Name → Nat
  | control word => controlWords.getD word 0
  | shared reg => globalIndex reg
  | engine eng reg => engineIndex eng reg

def Implemented (engines : Nat) : Name → Prop
  | control word => word < controlWords.length
  | shared reg => reg < globalCount
  | engine eng reg => eng < engines ∧ reg < perEngine

def ofIndex (index : Nat) : Name :=
  if index < globalBase then control (controlWords.idxOf index)
  else if index < engineBase then shared (index - globalBase)
  else engine ((index - engineBase) / perEngine) (index % perEngine)

theorem ofIndex_index {engines : Nat} (hlen : engines ≤ maxEngines) {name : Name}
    (h : name.Implemented engines) : ofIndex name.index = name := by
  cases name with
  | control word =>
    have hall : ∀ word < 8, ofIndex (control word).index = control word := by decide
    exact hall word h
  | shared reg =>
    have hreg : reg < 16 := h
    have hbase : ¬ 0x20 + reg < 0x20 := by omega
    have hengines : 0x20 + reg < 0x400 := by omega
    change ofIndex (0x20 + reg) = shared reg
    rw [ofIndex, globalBase, engineBase, if_neg hbase, if_pos hengines, Nat.add_sub_cancel_left]
  | engine eng reg =>
    obtain ⟨heng, hreg⟩ := h
    change reg < 16 at hreg
    have hbase : ¬ 0x400 + 16 * eng + reg < 0x20 := by omega
    have hengines : ¬ 0x400 + 16 * eng + reg < 0x400 := by omega
    have hslot : (0x400 + 16 * eng + reg - 0x400) / 16 = eng := by omega
    have hrest : (0x400 + 16 * eng + reg) % 16 = reg := by omega
    rw [index, engineIndex_eq (Nat.lt_of_lt_of_le heng hlen) hreg, ofIndex, globalBase, engineBase,
      perEngine, if_neg hbase, if_neg hengines, hslot, hrest]

theorem index_injOn {engines : Nat} (hlen : engines ≤ maxEngines) :
    Set.InjOn index {name | name.Implemented engines} := by
  have hleft : Set.LeftInvOn ofIndex index {name | name.Implemented engines} :=
    fun _ h => ofIndex_index hlen h
  exact hleft.injOn

end Name

theorem toNat_indexWord (eng reg : UInt32) :
    (indexWord eng reg).toNat = engineIndex eng.toNat reg.toNat := by
  have heng := eng.toNat_lt
  have hshift : eng.toNat <<< 4 < 2 ^ 64 := by
    rw [Nat.shiftLeft_eq]
    omega
  rw [indexWord, engineIndex, UInt64.toNat_or, UInt64.toNat_or, UInt64.toNat_shiftLeft,
    UInt32.toNat_toUInt64, UInt32.toNat_toUInt64]
  change 0x400 ||| eng.toNat <<< 4 % 2 ^ 64 ||| reg.toNat = _
  rw [Nat.mod_eq_of_lt hshift]
  rfl

theorem slotWord?_eq (engines : Nat) (index : UInt64) :
    slotWord? engines index = engineSlot? engines index.toNat := by
  have hbelow : index < 0x400 ↔ index.toNat < engineBase := UInt64.lt_iff_toNat_lt
  have hreg : (index &&& 0xf).toNat = index.toNat % perEngine := by
    rw [UInt64.toNat_and]
    exact Nat.and_two_pow_sub_one_eq_mod index.toNat 4
  rw [slotWord?, engineSlot?]
  by_cases hlow : index < 0x400
  · rw [if_pos hlow, if_pos (hbelow.1 hlow)]
  · have heng : ((index - 0x400) >>> 4).toNat = (index.toNat - engineBase) / perEngine := by
      rw [UInt64.toNat_shiftRight, UInt64.toNat_sub_of_le _ _ (UInt64.not_lt.1 hlow)]
      exact Nat.shiftRight_eq_div_pow _ 4
    rw [if_neg hlow, if_neg (fun h => hlow (hbelow.2 h)), heng, hreg]

variable {engines index eng reg : Nat}

theorem engineSlot?_eq_some_iff_index (hlen : engines ≤ maxEngines) :
    engineSlot? engines index = some (eng, reg) ↔
      index = engineIndex eng reg ∧ eng < engines ∧ reg < perEngine := by
  rw [engineSlot?_eq_some_iff]
  refine and_congr_left fun h => ?_
  rw [engineIndex_eq (Nat.lt_of_lt_of_le h.1 hlen) h.2]

theorem source_eq_engine_iff (hlen : engines ≤ maxEngines) :
    source engines index = .engine eng reg ↔
      index = engineIndex eng reg ∧ eng < engines ∧ reg < perEngine := by
  constructor
  · fun_cases source engines index
    all_goals rintro ⟨⟩
    exact (engineSlot?_eq_some_iff_index hlen).1 ‹_›
  · rintro ⟨rfl, heng, hreg⟩
    exact source_engineIndex heng hlen hreg

theorem engineSlot?_engineIndex_of_le (hwindow : eng < maxEngines) (hreg : reg < perEngine)
    (habsent : engines ≤ eng) : engineSlot? engines (engineIndex eng reg) = none := by
  change reg < 16 at hreg
  rw [Option.eq_none_iff_forall_ne_some]
  rintro ⟨eng', reg'⟩ hsome
  obtain ⟨hindex, heng', hreg'⟩ := engineSlot?_eq_some_iff.1 hsome
  change reg' < 16 at hreg'
  rw [engineIndex_eq hwindow hreg] at hindex
  omega

theorem source_engineIndex_of_le (hwindow : eng < maxEngines) (hreg : reg < perEngine)
    (habsent : engines ≤ eng) : source engines (engineIndex eng reg) = .unmapped := by
  have hbase := globals_le_engineIndex hwindow hreg
  rw [source_of_globalBase_le (by omega), if_neg (by omega),
    engineSlot?_engineIndex_of_le hwindow hreg habsent]

theorem target_engineIndex_of_le (hwindow : eng < maxEngines) (hreg : reg < perEngine)
    (habsent : engines ≤ eng) : target engines (engineIndex eng reg) = .readOnly := by
  have hbase := globals_le_engineIndex hwindow hreg
  rw [target_of_globalBase_le (by omega), if_neg (by omega),
    engineSlot?_engineIndex_of_le hwindow hreg habsent]

structure Exact (engines : Nat) : Prop where
  encodeWord (eng reg : UInt32) : (indexWord eng reg).toNat = engineIndex eng.toNat reg.toNat
  decodeWord (word : UInt64) : slotWord? engines word = engineSlot? engines word.toNat
  decode {index eng reg : Nat} : engineSlot? engines index = some (eng, reg) ↔
    index = engineIndex eng reg ∧ eng < engines ∧ reg < perEngine
  source {index eng reg : Nat} : source engines index = .engine eng reg ↔
    index = engineIndex eng reg ∧ eng < engines ∧ reg < perEngine
  target {index eng reg : Nat} : target engines index = .engine eng reg ↔
    index = engineIndex eng reg ∧ eng < engines ∧ reg < perEngine
  apart : Set.InjOn Name.index {name | name.Implemented engines}

theorem exact_of_le (hlen : engines ≤ maxEngines) : Exact engines where
  encodeWord := toNat_indexWord
  decodeWord := slotWord?_eq engines
  decode := engineSlot?_eq_some_iff_index hlen
  source := source_eq_engine_iff hlen
  target := by
    intro index eng reg
    rw [target_eq_engine_iff hlen, ← and_assoc, and_comm]
  apart := Name.index_injOn hlen

end AfuBench.Register
