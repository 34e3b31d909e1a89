import AfuBench.Bench.ClockCell
import AfuBench.Bench.LocalMemory
import AfuBench.Proofs.WritePlan

namespace AfuBench.Bench

variable {σ : Type} {caps : List Capabilities}

def unlimitedWrites (size : Nat) (mode : Mode) (eng : Nat) : Plan :=
  setupWrites eng ⟨mode.reads, 0, size⟩ ⟨mode.writes, 0, size⟩ (UInt64.ofNat eng)

def bandwidthWrites (mask : UInt64) (caps : List Capabilities) (size : Nat) (mode : Mode) : Plan :=
  ((selected mask caps).flatMap fun (eng, _) => unlimitedWrites size mode eng) ++
    [(8 * Register.enableMask, mask), (8 * Register.disableMask, mask)]

def bandwidthPlan : List Capabilities → Plan
  | [] => []
  | first :: rest => first.bandwidthSizes.flatMap fun size => bandwidthModes.flatMap fun mode =>
      bandwidthWrites (Word.ofBit true (first :: rest).length - 1) (first :: rest) size mode

theorem lt_of_mem_selected {mask : UInt64} {eng : Nat} {c : Capabilities}
    (h : (eng, c) ∈ selected mask caps) : eng < caps.length := by
  obtain ⟨⟨c', eng'⟩, hmem, heq⟩ := List.mem_map.1 h
  cases heq
  exact List.snd_lt_of_mem_zipIdx (List.mem_filter.1 hmem).1

variable [Bus σ]

theorem plans_setUnlimited {eng : Nat} (heng : eng < Register.maxEngines) (size : Nat)
    (mode : Mode) : Plans (σ := σ) (setUnlimited size mode eng) (unlimitedWrites size mode eng) := by
  simp only [setUnlimited, writeEngine_eq heng (show Register.readTraffic < _ by decide),
    writeEngine_eq heng (show Register.writeTraffic < _ by decide),
    writeEngine_eq heng (show Register.seed < _ by decide)]
  refine Keeps.after_write ?_
  refine Keeps.after_write ?_
  exact (keeps_write _ _).mono (fun _ _ _ => trivial) fun _ _ h => h

theorem onlyReads_waitStarted (limit : Nat) : OnlyReads (σ := σ) (waitStarted limit) :=
  onlyReads_pollFrom (fun _ => Keeps.after_read fun _ => keeps_pure trivial) 0 _

theorem onlyReads_waitIdle (limit : Nat) : OnlyReads (σ := σ) (waitIdle limit) :=
  onlyReads_pollFrom (fun _ => Keeps.after_read fun _ => keeps_pure trivial) 0 _

theorem onlyReads_clockMhz : OnlyReads (σ := σ) clockMhz := by
  refine Keeps.after_read fun enabled => ?_
  split
  · exact plans_pure _
  · refine Keeps.after_read fun config => ?_
    refine Keeps.after_read fun cycles => ?_
    refine Keeps.after_read fun reference => ?_
    split
    · exact plans_pure _
    · exact plans_pure _

theorem onlyReads_knownClock (mhz : Float) : OnlyReads (σ := σ) (knownClock mhz) := by
  rw [knownClock]
  split
  · exact onlyReads_clockMhz.bind fun _ => Keeps.after_printLine (plans_pure _)
  · exact plans_pure _

theorem onlyReads_measure {eng : Nat} (heng : eng < Register.maxEngines) (mode : Mode) (mhz : Float)
    (cycles : UInt64) (c : Capabilities) : OnlyReads (σ := σ) (measure mode mhz cycles eng c) := by
  simp only [measure, readEngine_eq heng (show Register.readLines < _ by decide),
    readEngine_eq heng (show Register.writeLines < _ by decide)]
  refine Keeps.after_read fun readLines => ?_
  refine Keeps.after_read fun writeLines => ?_
  split
  · exact Keeps.after_printLine (keeps_throw trivial)
  · exact Keeps.after_printLine (plans_pure _)

theorem plans_traffic (hcaps : caps.length ≤ Register.maxEngines) (mask : UInt64) (size : Nat)
    (mode : Mode) (limit : Nat) :
    Plans (σ := σ) (traffic mask caps size mode limit) (bandwidthWrites mask caps size mode) := by
  have hset : Plans (σ := σ)
      ((selected mask caps).forM fun (eng, _) => setUnlimited size mode eng)
      ((selected mask caps).flatMap fun (eng, _) => unlimitedWrites size mode eng) :=
    Plans.forM fun engine h =>
      plans_setUnlimited (Nat.lt_of_lt_of_le (lt_of_mem_selected h) hcaps) size mode
  refine hset.bind fun _ => ?_
  refine Keeps.after_write ?_
  refine Plans.bind (onlyReads_waitStarted limit) fun _ => ?_
  refine Keeps.after_write ?_
  exact OnlyReads.bind (onlyReads_waitIdle limit) fun _ => plans_pure _

theorem onlyReads_figures {engines : List (Nat × Capabilities)}
    (hfew : ∀ engine ∈ engines, engine.1 < Register.maxEngines) (mode : Mode) (mhz : Float) :
    OnlyReads (σ := σ) (figures engines mode mhz) := by
  refine OnlyReads.bind (onlyReads_knownClock mhz) fun _ => ?_
  refine Keeps.after_read fun cycles => ?_
  refine OnlyReads.bind ?_ fun _ => plans_pure _
  exact OnlyReads.mapM fun engine h => onlyReads_measure (hfew engine h) mode _ cycles _

theorem plans_bandwidth (hcaps : caps.length ≤ Register.maxEngines) (mask : UInt64) (size : Nat)
    (mode : Mode) (limit : Nat) (mhz : Float) :
    Plans (σ := σ) (bandwidth mask caps size mode limit mhz)
      (bandwidthWrites mask caps size mode) := by
  rw [bandwidth_eq, ← List.append_nil (bandwidthWrites mask caps size mode)]
  refine (plans_traffic hcaps mask size mode limit).bind fun _ => ?_
  exact onlyReads_figures (fun engine h => Nat.lt_of_lt_of_le (lt_of_mem_selected h) hcaps) mode mhz

theorem plans_bandwidthAt (hcaps : caps.length ≤ Register.maxEngines) (mask : UInt64) (limit : Nat)
    (mhz : Float) (size : Nat) :
    Plans (σ := σ) (bandwidthAt mask caps limit mhz size)
      (bandwidthModes.flatMap (bandwidthWrites mask caps size)) := by
  refine Keeps.after_printLine ?_
  refine Keeps.after_printLine ?_
  refine Plans.foldlM (fun mhz mode => ?_) mhz
  rw [← List.append_nil (bandwidthWrites mask caps size mode)]
  exact (plans_bandwidth hcaps mask size mode limit mhz).bind fun _ => plans_pure _

theorem plans_bandwidthAll (hcaps : caps.length ≤ Register.maxEngines) (limit : Nat) :
    Plans (σ := σ) (bandwidthAll caps limit) (bandwidthPlan caps) := by
  cases caps with
  | nil => exact plans_pure _
  | cons first rest =>
    rw [bandwidthAll, bandwidthPlan, ← List.append_nil (List.flatMap _ _)]
    refine Plans.bind ?_ fun _ => plans_pure _
    exact Plans.foldlM (fun mhz size => plans_bandwidthAt hcaps _ limit mhz size) 0.0

end AfuBench.Bench
