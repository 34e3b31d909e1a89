import AfuBench.Proofs.BandwidthPlan
import AfuBench.Proofs.SweepPlan

namespace AfuBench.Bench

variable {eng j reg : Nat} {caps : List Capabilities} {w : Nat × UInt64}

def Touches (eng : Nat) (w : Nat × UInt64) : Prop :=
  (∃ index reg, w.1 = 8 * index ∧
      Register.engineSlot? Register.maxEngines index = some (eng, reg)) ∨
    w.1 = 8 * Register.enableMask ∧ Word.bit w.2 eng = true

theorem slot_touches {offset : Nat} {value : UInt64} (h : Touches eng (offset, value))
    (hmask : offset ≠ 8 * Register.enableMask) :
    ∃ reg < Register.perEngine, offset = 8 * (0x400 + 16 * eng + reg) := by
  rcases h with ⟨index, reg, hoffset, hslot⟩ | ⟨hoffset, _⟩
  · obtain ⟨rfl, _, hreg⟩ := Register.engineSlot?_eq_some_iff.1 hslot
    exact ⟨reg, hreg, hoffset⟩
  · exact absurd hoffset hmask

theorem eq_of_touches_register (heng : eng < Register.maxEngines) (hreg : reg < Register.perEngine)
    {value : UInt64} (h : Touches j (8 * Register.engineIndex eng reg, value)) : j = eng := by
  obtain ⟨reg', hreg', hoffset⟩ := slot_touches h (engineOffset_ne heng hreg (by decide))
  rw [Register.engineIndex_eq heng hreg] at hoffset
  change reg < 16 at hreg
  change reg' < 16 at hreg'
  omega

theorem bit_of_touches_enable {mask : UInt64} (h : Touches j (8 * Register.enableMask, mask)) :
    Word.bit mask j = true := by
  rcases h with ⟨index, reg, hoffset, hslot⟩ | ⟨_, hbit⟩
  · obtain ⟨rfl, _, _⟩ := Register.engineSlot?_eq_some_iff.1 hslot
    change 8 * 0x10 = _ at hoffset
    omega
  · exact hbit

theorem not_touches_disable (mask : UInt64) : ¬ Touches j (8 * Register.disableMask, mask) := by
  intro h
  obtain ⟨reg, _, hoffset⟩ := slot_touches h (by decide)
  change 8 * 0x11 = _ at hoffset
  omega

theorem mem_setupWrites {reads writes : Burst} {seed : UInt64}
    (hw : w ∈ setupWrites eng reads writes seed) :
    ∃ reg < Register.perEngine, ∃ value, w = (8 * Register.engineIndex eng reg, value) := by
  simp only [setupWrites, List.mem_cons, List.not_mem_nil, or_false] at hw
  rcases hw with rfl | rfl | rfl
  · exact ⟨Register.readTraffic, by decide, _, rfl⟩
  · exact ⟨Register.writeTraffic, by decide, _, rfl⟩
  · exact ⟨Register.seed, by decide, _, rfl⟩

theorem eq_of_touches_setupWrites (heng : eng < Register.maxEngines) {reads writes : Burst}
    {seed : UInt64} (hw : w ∈ setupWrites eng reads writes seed) (h : Touches j w) : j = eng := by
  obtain ⟨reg, hreg, value, rfl⟩ := mem_setupWrites hw
  exact eq_of_touches_register heng hreg h

theorem eq_of_touches_sweepWrites (heng : eng < Register.maxEngines) {c : Capabilities}
    (hw : w ∈ sweepWrites eng c) (h : Touches j w) : j = eng := by
  obtain ⟨step, _, hrun⟩ := List.mem_flatMap.1 hw
  simp only [runWrites, startWrites, List.mem_append, List.mem_singleton] at hrun
  rcases hrun with (hconfig | rfl) | rfl
  · exact eq_of_touches_setupWrites heng hconfig h
  · have hbit := bit_of_touches_enable h
    rw [Word.bit_ofBit true (Nat.lt_of_lt_of_le heng (by decide)), Bool.true_and] at hbit
    exact (of_decide_eq_true hbit).symm
  · exact absurd h (not_touches_disable _)

theorem lt_of_touches_bandwidthWrites (hcaps : caps.length ≤ Register.maxEngines) {size : Nat}
    {mode : Mode}
    (hw : w ∈ bandwidthWrites (Word.ofBit true caps.length - 1) caps size mode)
    (h : Touches j w) : j < caps.length := by
  simp only [bandwidthWrites, List.mem_append, List.mem_cons, List.not_mem_nil, or_false] at hw
  rcases hw with hset | rfl | rfl
  · obtain ⟨⟨eng, c⟩, hselected, hmem⟩ := List.mem_flatMap.1 hset
    have hlt := lt_of_mem_selected hselected
    rw [eq_of_touches_setupWrites (Nat.lt_of_lt_of_le hlt hcaps) hmem h]
    exact hlt
  · have hbit := bit_of_touches_enable h
    rw [Word.bit_ofBit_sub_one hcaps] at hbit
    exact of_decide_eq_true hbit
  · exact absurd h (not_touches_disable _)

theorem lt_of_touches_bandwidthPlan (hcaps : caps.length ≤ Register.maxEngines)
    (hw : w ∈ bandwidthPlan caps) (h : Touches j w) : j < caps.length := by
  cases caps with
  | nil => exact absurd hw List.not_mem_nil
  | cons first rest =>
    obtain ⟨size, _, hsize⟩ := List.mem_flatMap.1 hw
    obtain ⟨mode, _, hmode⟩ := List.mem_flatMap.1 hsize
    exact lt_of_touches_bandwidthWrites hcaps hmode h

def lastWritten (offset : Nat) (log : List Access) : Option UInt64 :=
  (accepts log).reverse.lookup offset

def Bounded (eng : Nat) (log : List Access) : Prop :=
  ∃ read write,
    lastWritten (8 * Register.engineIndex eng Register.readTraffic) log = some read ∧
    lastWritten (8 * Register.engineIndex eng Register.writeTraffic) log = some write ∧
    (Burst.ofWord read).count ≠ 0 ∧ (Burst.ofWord write).count ≠ 0

theorem bounded_of_setupWrites (heng : eng < Register.maxEngines) {reads writes : Burst}
    (hreads : (Burst.ofWord reads.toWord).count ≠ 0)
    (hwrites : (Burst.ofWord writes.toWord).count ≠ 0) {seed : UInt64} {log : List Access}
    {earlier : Plan} (h : accepts log = earlier ++ setupWrites eng reads writes seed) :
    Bounded eng log := by
  have hoffset : ∀ reg < Register.perEngine, ∀ reg' < Register.perEngine, reg ≠ reg' →
      (8 * Register.engineIndex eng reg == 8 * Register.engineIndex eng reg') = false := by
    intro reg hreg reg' hreg' hne
    rw [Register.engineIndex_eq heng hreg, Register.engineIndex_eq heng hreg']
    exact beq_false_of_ne (by omega)
  have hlast : (accepts log).reverse =
      (8 * Register.engineIndex eng Register.seed, seed) ::
        (8 * Register.engineIndex eng Register.writeTraffic, writes.toWord) ::
          (8 * Register.engineIndex eng Register.readTraffic, reads.toWord) :: earlier.reverse := by
    rw [h, List.reverse_append]
    rfl
  refine ⟨reads.toWord, writes.toWord, ?_, ?_, hreads, hwrites⟩
  · rw [lastWritten, hlast, List.lookup_cons, List.lookup_cons, List.lookup_cons_self,
      hoffset _ (by decide) _ (by decide) (by decide), hoffset _ (by decide) _ (by decide) (by decide)]
  · rw [lastWritten, hlast, List.lookup_cons, List.lookup_cons_self,
      hoffset _ (by decide) _ (by decide) (by decide)]

theorem mem_sweepSteps {c : Capabilities} {step : SweepStep} (h : step ∈ sweepSteps c.sweepGrid) :
    step.size ≤ c.maxBurst ∧ step.count ∈ burstCounts := by
  obtain ⟨⟨size, count⟩, hgrid, hmode⟩ := List.mem_flatMap.1 h
  obtain ⟨_, _, rfl⟩ := List.mem_map.1 hmode
  obtain ⟨_, hsize, hcount⟩ := List.mem_flatMap.1 hgrid
  obtain ⟨_, hmem, heq⟩ := List.mem_map.1 hcount
  cases heq
  exact ⟨(Capabilities.mem_sweepSizes hsize).2, hmem⟩

theorem bounded_of_configWrites (heng : eng < Register.maxEngines) {c : Capabilities}
    (hburst : c.maxBurst ≤ 0x7fff) {step : SweepStep} (hstep : step ∈ sweepSteps c.sweepGrid)
    {log : List Access} {earlier : Plan} (h : accepts log = earlier ++ configWrites eng step) :
    Bounded eng log := by
  obtain ⟨hsize, hcount⟩ := mem_sweepSteps hstep
  have hcounts : ∀ n ∈ burstCounts, n ≠ 0 ∧ n < 2 ^ 16 := by decide
  have hsize_lt : step.size < 2 ^ 16 :=
    Nat.lt_of_le_of_lt (Nat.le_trans hsize hburst) (by decide)
  have hfield : ∀ enabled, (Burst.ofWord (Burst.mk enabled step.count step.size).toWord).count ≠ 0 := by
    intro enabled
    rw [Burst.ofWord_toWord (hcounts _ hcount).2 hsize_lt]
    exact (hcounts _ hcount).1
  exact bounded_of_setupWrites heng (hfield _) (hfield _) h

theorem enable_of_prefix (heng : eng < Register.maxEngines) {steps : List SweepStep} {tried : Plan}
    (h : tried ++ [w] <+: steps.flatMap (runWrites eng)) (hw : w.1 = 8 * Register.enableMask) :
    ∃ earlier, ∃ step ∈ steps, tried = earlier ++ configWrites eng step ∧
      w = (8 * Register.enableMask, Word.ofBit true eng) := by
  have hdisable : w ≠ (8 * Register.disableMask, Word.ofBit true eng) := by
    rintro rfl
    exact absurd hw (show 8 * Register.disableMask ≠ 8 * Register.enableMask by decide)
  induction steps generalizing tried with
  | nil =>
    have hnil := List.prefix_nil.1 h
    exact absurd hnil (List.append_ne_nil_of_right_ne_nil _ (List.cons_ne_nil _ _))
  | cons step steps ih =>
    rw [List.flatMap_cons] at h
    rcases List.prefix_or_prefix_of_prefix h (List.prefix_append (runWrites eng step) _) with
      hwithin | hbeyond
    · rcases List.prefix_concat_iff.1 hwithin with hall | hstart
      · exact absurd (List.append_inj' hall rfl).2 (by simpa using hdisable)
      rcases List.prefix_concat_iff.1 hstart with hall | hconfig
      · obtain ⟨rfl, hlast⟩ := List.append_inj' hall rfl
        exact ⟨[], step, List.mem_cons_self, rfl, List.singleton_inj.1 hlast⟩
      · have hmem := hconfig.subset (List.mem_append_right _ List.mem_cons_self)
        obtain ⟨reg, hreg, value, rfl⟩ := mem_setupWrites hmem
        exact absurd hw (engineOffset_ne heng hreg (by decide))
    · rcases List.prefix_concat_iff.1 hbeyond with hall | hthrough
      · exact absurd (List.append_inj' hall rfl).2.symm (by simpa using hdisable)
      · obtain ⟨later, rfl⟩ := hthrough
        rw [List.append_assoc, List.prefix_append_right_inj] at h
        obtain ⟨earlier, step', hstep', rfl, hmask⟩ := ih h
        refine ⟨runWrites eng step ++ earlier, step', List.mem_cons_of_mem _ hstep', ?_, hmask⟩
        rw [List.append_assoc]

end AfuBench.Bench
