import AfuBench.Proofs.BandwidthRun
import AfuBench.Proofs.Discovery
import AfuBench.Proofs.SweepSequence

namespace AfuBench

namespace Bench

variable {σ : Type} [Bus σ] [Afu.Host σ] {config : AfuConfig} {a : Afu} {faults : Nat → Fault}
  {limit : Nat}

theorem completes_testEngines (h : Afu.Idle config faults a)
    (hhealthy : ∀ j < config.engines, faults j = ⟨false, false⟩)
    (hlimit : config.busyPolls < limit) :
    ∃ requests out, Performs (σ := σ)
      (testEngines limit (List.replicate config.engines config.reported)) a
      (.ok (.ofRuns (allVerdicts config (fun _ => false) config.engines))) requests out := by
  have hfree : ∀ eng < config.engines, (faults eng).stalled = false := by
    intro eng heng
    rw [hhealthy eng heng]
  obtain ⟨_, more, out, hband, _⟩ := completes_bandwidthAll (σ := σ)
    (idle_sweeps h (Nat.le_refl config.engines)) hfree hlimit
  refine ⟨sweepsRequests config config.engines ++ more,
    (List.range config.engines).flatMap (sweepReport config false) ++ out, ?_⟩
  refine (performs_sweepEngines h hhealthy hlimit).bind ?_
  exact hband.bind_pure _

theorem hang_testEngines (h : Afu.Idle config faults a) (hpos : 0 < config.engines)
    (hsizes : 0 < config.reported.sweepSizes.length) (hlimit : 0 < limit)
    (hlate : limit ≤ config.busyPolls) :
    ∃ requests out, Performs (σ := σ)
      (testEngines limit (List.replicate config.engines config.reported)) a
      (.error (.hang limit)) requests out := by
  obtain ⟨count, hcount⟩ : ∃ count, config.engines = count + 1 := ⟨config.engines - 1, by omega⟩
  obtain ⟨point, points, hpoints⟩ := exists_firstPoint config hsizes 0
  have hhang := performs_sweepEngines_hang (σ := σ) h hpos hpoints hlimit (Or.inr hlate)
    (List.replicate count config.reported) .empty
  rw [hcount, List.replicate_succ]
  exact ⟨_, _, hhang.bind_error⟩

theorem ofRuns_healthy (config : AfuConfig) (count : Nat) :
    (SweepStats.ofRuns (allVerdicts config (fun _ => false) count)).failed = 0 ∧
      (SweepStats.ofRuns (allVerdicts config (fun _ => false) count)).passed =
        12 * count * config.reported.sweepSizes.length ∧
      (SweepStats.ofRuns (allVerdicts config (fun _ => false) count)).unchecked =
        4 * count * config.reported.sweepSizes.length := by
  refine ⟨?_, ?_, ?_⟩
  · have hfailed := countP_allVerdicts (!·.passed) config (fun _ => false) 0 count fun _ _ => rfl
    rw [SweepStats.failed_ofRuns, hfailed, Nat.mul_zero, Nat.zero_mul, Nat.zero_mul]
  · rw [SweepStats.passed_ofRuns]
    exact countP_allVerdicts _ config (fun _ => false) 3 count fun _ _ => rfl
  · rw [SweepStats.unchecked_ofRuns]
    exact countP_allVerdicts _ config (fun _ => false) 1 count fun _ _ => rfl

theorem localMemoryTest_healthy {config : AfuConfig} (hv : config.Valid) {a : Afu}
    (ha : Afu.Reachable config a) (hoff : a.enabled = 0)
    (hhealthy : ∀ e ∈ a.engines, e.stalled = false ∧ e.corrupt = false) (limit : Nat)
    (hlimit : 1 ≤ limit) :
    (config.busyPolls < limit →
      ∃ stats, ((localMemoryTest limit).exec a).1 = .ok stats ∧ stats.failed = 0 ∧
        stats.passed = 12 * min config.engines 16 * config.reported.sweepSizes.length ∧
        stats.unchecked = 4 * min config.engines 16 * config.reported.sweepSizes.length ∧
        (0 < 12 * min config.engines 16 * config.reported.sweepSizes.length →
          stats.maxTrips = config.busyPolls) ∧
        ∀ i : Fin 10, stats.tripBuckets[i] =
          if i.val = min config.busyPolls 9 then
            12 * min config.engines 16 * config.reported.sweepSizes.length
          else 0) ∧
      (limit ≤ config.busyPolls →
        0 < min config.engines 16 * config.reported.sweepSizes.length →
          ((localMemoryTest limit).exec a).1 = .error (.hang limit)) := by
  have hidle := ha.idle hv hoff
  have hfaults : ∀ j < config.clamp.engines, a.faults j = ⟨false, false⟩ := fun j _ =>
    Afu.faults_eq_none fun e he => hhealthy e (List.mem_of_getElem? he)
  constructor
  · intro hbusy
    obtain ⟨requests, out, htest⟩ := completes_testEngines (σ := Afu) hidle hfaults hbusy
    obtain ⟨hfailed, hpassed, hunchecked⟩ := ofRuns_healthy config config.clamp.engines
    have hlength := length_allVerdicts config (fun _ => false) config.clamp.engines
    refine ⟨.ofRuns (allVerdicts config (fun _ => false) config.clamp.engines), ?_, hfailed, hpassed,
      hunchecked, ?_, ?_⟩
    · rw [(performs_localMemoryTest hidle.toSound htest).exec rfl]
      rfl
    · intro hpos
      refine SweepStats.maxTrips_ofRuns ?_ fun _ => trips_of_mem_allVerdicts
      exact List.ne_nil_of_length_pos (Nat.lt_of_lt_of_eq hpos hlength.symm)
    · intro i
      rw [SweepStats.tripBuckets_ofRuns_of_trips (fun _ => trips_of_mem_allVerdicts), hlength]
      rfl
  · intro hlate hruns
    obtain ⟨requests, out, htest⟩ := hang_testEngines (σ := Afu) hidle
      (Nat.pos_of_mul_pos_right hruns) (Nat.pos_of_mul_pos_left hruns) hlimit hlate
    rw [(performs_localMemoryTest hidle.toSound htest).exec rfl]

/-- Engine 0 has streamed for a while, with engine 1 stalled. -/
def usedDevice : Afu :=
  (Afu.new .standard).run
    [.write (8 * Register.engineIndex 0 Register.readTraffic) (Burst.toWord ⟨true, 0, 5⟩),
      .stall 1 true, .write (8 * Register.enableMask) 3, .read (8 * Register.activeMask),
      .write (8 * Register.disableMask) 3, .stall 1 false]

theorem localMemoryTest_healthy_usedDevice :
    (∃ stats, ((localMemoryTest 10).exec usedDevice).1 = .ok stats ∧ stats.failed = 0 ∧
      stats.passed = 144 ∧ stats.unchecked = 48 ∧ stats.maxTrips = 2 ∧
        stats.tripBuckets[(2 : Fin 10)] = 144) ∧
      ((localMemoryTest 2).exec usedDevice).1 = .error (.hang 2) := by
  have hsizes : AfuConfig.standard.reported.sweepSizes.length = 6 := by decide
  have hreach : Afu.Reachable .standard usedDevice := ⟨_, rfl⟩
  have hoff : usedDevice.enabled = 0 := by decide
  have hhealthy : ∀ e ∈ usedDevice.engines, e.stalled = false ∧ e.corrupt = false := by decide
  have hmany := localMemoryTest_healthy (by decide) hreach hoff hhealthy 10 (by decide)
  have hfew := localMemoryTest_healthy (by decide) hreach hoff hhealthy 2 (by decide)
  rw [hsizes] at hmany hfew
  obtain ⟨stats, hok, hfailed, hpassed, hunchecked, htrips, hbuckets⟩ := hmany.1 (by decide)
  refine ⟨⟨stats, hok, hfailed, hpassed, hunchecked, htrips (by decide), hbuckets 2⟩, ?_⟩
  exact hfew.2 (by decide) (by decide)

end Bench

end AfuBench
