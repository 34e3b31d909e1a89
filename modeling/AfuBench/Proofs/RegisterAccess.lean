import AfuBench.Proofs.Slots

namespace AfuBench

namespace Register

theorem engineSlot?_engineIndex {engines eng reg : Nat} (heng : eng < engines)
    (hlen : engines ≤ maxEngines) (hreg : reg < perEngine) :
    engineSlot? engines (engineIndex eng reg) = some (eng, reg) := by
  rw [engineSlot?_eq_some_iff, engineIndex_eq (Nat.lt_of_lt_of_le heng hlen) hreg]
  exact ⟨rfl, heng, hreg⟩

theorem globals_le_engineIndex {eng reg : Nat} (heng : eng < maxEngines)
    (hreg : reg < perEngine) : globalBase + globalCount ≤ engineIndex eng reg := by
  rw [engineIndex_eq heng hreg]
  simp only [globalBase, globalCount]
  omega

theorem source_engineIndex {engines eng reg : Nat} (heng : eng < engines)
    (hlen : engines ≤ maxEngines) (hreg : reg < perEngine) :
    source engines (engineIndex eng reg) = .engine eng reg := by
  have hbase := globals_le_engineIndex (Nat.lt_of_lt_of_le heng hlen) hreg
  rw [source_of_globalBase_le (by omega), if_neg (by omega), engineSlot?_engineIndex heng hlen hreg]

theorem target_engineIndex {engines eng reg : Nat} (heng : eng < engines)
    (hlen : engines ≤ maxEngines) (hreg : reg < perEngine) :
    target engines (engineIndex eng reg) = .engine eng reg := by
  have hbase := globals_le_engineIndex (Nat.lt_of_lt_of_le heng hlen) hreg
  rw [target_of_globalBase_le (by omega), if_neg (by omega), engineSlot?_engineIndex heng hlen hreg]

theorem engineIndex_ne_activeMask {eng reg : Nat} (heng : eng < maxEngines)
    (hreg : reg < perEngine) : engineIndex eng reg ≠ activeMask := by
  rw [engineIndex_eq heng hreg]
  simp only [activeMask]
  omega

theorem source_globalIndex {engines reg : Nat} (hreg : reg < globalCount) :
    source engines (globalIndex reg) = .shared reg := by
  rw [globalIndex, source_of_globalBase_le (by omega), if_pos (by omega), Nat.add_sub_cancel_left]

theorem target_eq_enable_iff {engines index : Nat} :
    target engines index = .enable ↔ index = enableMask := by
  constructor
  · fun_cases target engines index
    all_goals rintro ⟨⟩
    assumption
  · rintro rfl
    rfl

theorem target_eq_disable_iff {engines index : Nat} :
    target engines index = .disable ↔ index = disableMask := by
  constructor
  · fun_cases target engines index
    all_goals rintro ⟨⟩
    assumption
  · rintro rfl
    rfl

theorem target_eq_engine_iff {engines index eng reg : Nat} (hlen : engines ≤ maxEngines) :
    target engines index = .engine eng reg ↔
      eng < engines ∧ reg < perEngine ∧ index = engineIndex eng reg := by
  constructor
  · fun_cases target engines index
    all_goals rintro ⟨⟩
    obtain ⟨hindex, heng, hreg⟩ := engineSlot?_eq_some_iff.1 ‹_›
    refine ⟨heng, hreg, ?_⟩
    rw [hindex, engineIndex_eq (Nat.lt_of_lt_of_le heng hlen) hreg]
  · rintro ⟨heng, hreg, rfl⟩
    exact target_engineIndex heng hlen hreg

end Register

namespace Afu

theorem read_word (a : Afu) (index : Nat) :
    a.read (8 * index) = (.ok (a.readWord index).1, (a.readWord index).2) := by
  rw [read, if_neg (by omega), Nat.mul_div_cancel_left index (by omega)]

theorem write_word (a : Afu) (index : Nat) (value : UInt64) :
    a.write (8 * index) value = a.writeWord index value := by
  rw [write, if_neg (by omega), Nat.mul_div_cancel_left index (by omega)]

theorem readWord_engine {a : Afu} {eng reg : Nat} {s : Slot} (hs : a.slot? eng = some s)
    (hlen : a.engines.length ≤ 16) (hreg : reg < Register.perEngine) :
    (a.readWord (Register.engineIndex eng reg)).1 =
      s.engine.readRegister a.config s.running reg := by
  obtain ⟨e, he, rfl⟩ := Option.map_eq_some_iff.1 hs
  obtain ⟨heng, _⟩ := List.getElem?_eq_some_iff.1 he
  rw [readWord, Register.source_engineIndex heng hlen hreg]
  simp only [readEngine, he]

end Afu

end AfuBench
