import AfuBench.Bench.LocalMemory
import AfuBench.Proofs.EngineSweep

namespace AfuBench.Bench

theorem countP_verdicts (select : Run → Bool) (corrupt : Bool) (trips : Nat)
    (points : List SweepPoint) :
    (verdicts corrupt trips (sweepRuns points)).countP select =
      points.length *
        ([Mode.write, .read, .readWrite].map (Mode.verdict corrupt trips)).countP select := by
  induction points with
  | nil => rw [List.length_nil, Nat.zero_mul]; rfl
  | cons point points ih =>
    have hcons : verdicts corrupt trips (sweepRuns (point :: points)) =
        [Mode.write, .read, .readWrite].map (Mode.verdict corrupt trips) ++
          verdicts corrupt trips (sweepRuns points) := rfl
    rw [hcons, List.countP_append, ih, List.length_cons, Nat.succ_mul, Nat.add_comm]

theorem countP_sweepVerdicts (select : Run → Bool) (config : AfuConfig) (corrupt : Bool)
    (eng : Nat) :
    (sweepVerdicts config corrupt eng).countP select =
      4 * config.reported.sweepSizes.length *
        ([Mode.write, .read, .readWrite].map
          (Mode.verdict corrupt config.busyPolls)).countP select := by
  rw [sweepVerdicts, countP_verdicts, AfuConfig.length_points]

theorem trips_of_mem_sweepVerdicts {config : AfuConfig} {corrupt : Bool} {eng : Nat} {r : Run}
    (hr : r ∈ sweepVerdicts config corrupt eng) : r.trips = config.busyPolls := by
  obtain ⟨_, _, rfl⟩ := List.mem_map.1 hr
  rfl

theorem failed_sweepVerdicts (config : AfuConfig) (corrupt : Bool) (eng : Nat) :
    (SweepStats.ofRuns (sweepVerdicts config corrupt eng)).failed =
      if corrupt then 8 * config.reported.sweepSizes.length else 0 := by
  rw [SweepStats.failed_ofRuns, countP_sweepVerdicts]
  cases corrupt with
  | false => rfl
  | true =>
    change 4 * config.reported.sweepSizes.length * 2 = 8 * config.reported.sweepSizes.length
    omega

def allVerdicts (config : AfuConfig) (corrupt : Nat → Bool) (count : Nat) : List Run :=
  (List.range count).flatMap fun eng => sweepVerdicts config (corrupt eng) eng

theorem countP_allVerdicts (select : Run → Bool) (config : AfuConfig) (corrupt : Nat → Bool)
    (each count : Nat)
    (heach : ∀ eng < count,
      ([Mode.write, .read, .readWrite].map
        (Mode.verdict (corrupt eng) config.busyPolls)).countP select = each) :
    (allVerdicts config corrupt count).countP select =
      4 * each * count * config.reported.sweepSizes.length := by
  induction count with
  | zero => rw [Nat.mul_zero, Nat.zero_mul]; rfl
  | succ count ih =>
    have hsplit : allVerdicts config corrupt (count + 1) =
        allVerdicts config corrupt count ++ sweepVerdicts config (corrupt count) count := by
      rw [allVerdicts, List.range_succ, List.flatMap_append, List.flatMap_singleton, allVerdicts]
    rw [hsplit, List.countP_append, ih fun eng heng => heach eng (by omega), countP_sweepVerdicts,
      heach count (by omega), Nat.mul_right_comm 4 _ each, Nat.mul_succ, Nat.add_mul]

theorem trips_of_mem_allVerdicts {corrupt : Nat → Bool} {count : Nat} {r : Run}
    (hr : r ∈ allVerdicts config corrupt count) : r.trips = config.busyPolls := by
  obtain ⟨eng, _, hmem⟩ := List.mem_flatMap.1 hr
  exact trips_of_mem_sweepVerdicts hmem

theorem length_allVerdicts (config : AfuConfig) (corrupt : Nat → Bool) (count : Nat) :
    (allVerdicts config corrupt count).length = 12 * count * config.reported.sweepSizes.length := by
  rw [← List.countP_true, countP_allVerdicts (fun _ => true) config corrupt 3 count fun _ _ => rfl]

def sweepsRequests (config : AfuConfig) (count : Nat) : List Bus.Request :=
  (List.range count).flatMap (sweepRequests config)

variable {σ : Type} [Bus σ] [Afu.Host σ] {config : AfuConfig} {faults : Nat → Fault} {a : Afu}
  {limit : Nat}

theorem performs_sweepEngines_healthy (h : Afu.Idle config faults a) {eng count : Nat}
    (heng : eng + count ≤ config.engines)
    (hhealthy : ∀ j, eng ≤ j → j < eng + count → faults j = ⟨false, false⟩)
    (hlimit : config.busyPolls < limit) {rest : List Capabilities} {stats : SweepStats}
    {r : Except BenchError (SweepStats × Bool)} {more : List Bus.Request}
    {out : List Console.Output}
    (hrest : Performs (σ := σ) (sweepEngines limit (eng + count) rest
        (stats.merge (.ofRuns ((List.range' eng count).flatMap (sweepVerdicts config false)))))
      (Bus.serve a ((List.range' eng count).flatMap (sweepRequests config))) r more out) :
    Performs (σ := σ)
      (sweepEngines limit eng (List.replicate count config.reported ++ rest) stats) a r
      ((List.range' eng count).flatMap (sweepRequests config) ++ more)
      ((List.range' eng count).flatMap (sweepReport config false) ++ out) := by
  -- the rest of the sequence is a parameter, since what follows differs from theorem to theorem
  induction count generalizing eng a stats with
  | zero =>
    have hempty : stats.merge (.ofRuns []) = stats := by
      rw [SweepStats.merge_comm]
      exact SweepStats.empty_merge stats
    rw [List.range'_zero, List.flatMap_nil, hempty] at hrest
    exact hrest
  | succ count ih =>
    have hfault : faults eng = ⟨false, false⟩ := hhealthy eng (Nat.le_refl eng) (by omega)
    have hlt : eng < config.engines := by omega
    have hsweep := performs_sweep (σ := σ) h hlt (by rw [hfault]) hlimit
    rw [hfault] at hsweep
    have hpassed : ¬ 0 < (SweepStats.ofRuns (sweepVerdicts config false eng)).failed := by
      rw [failed_sweepVerdicts]
      exact Nat.lt_irrefl 0
    have hnext := idle_sweep h hlt
    rw [List.range'_succ, List.flatMap_cons, List.flatMap_cons, List.append_assoc,
      List.append_assoc, List.replicate_succ, List.cons_append, sweepEngines]
    refine hsweep.bind ?_
    rw [if_neg hpassed]
    refine ih hnext (by omega) (fun j hj hlt => hhealthy j (by omega) (by omega)) ?_
    rw [List.range'_succ, List.flatMap_cons, List.flatMap_cons, SweepStats.ofRuns_append,
      ← SweepStats.merge_assoc, Bus.serve_append, ← Nat.add_assoc, Nat.add_right_comm] at hrest
    exact hrest

theorem idle_sweeps (h : Afu.Idle config faults a) {count : Nat} (hcount : count ≤ config.engines) :
    Afu.Idle config faults (Bus.serve a (sweepsRequests config count)) := by
  induction count with
  | zero => exact h
  | succ count ih =>
    rw [sweepsRequests, List.range_succ, List.flatMap_append, List.flatMap_singleton,
      Bus.serve_append]
    exact idle_sweep (ih (by omega)) (by omega)

theorem performs_sweepEngines (h : Afu.Idle config faults a)
    (hhealthy : ∀ j < config.engines, faults j = ⟨false, false⟩)
    (hlimit : config.busyPolls < limit) :
    Performs (σ := σ)
      (sweepEngines limit 0 (List.replicate config.engines config.reported) .empty) a
      (.ok (.ofRuns ((List.range config.engines).flatMap (sweepVerdicts config false)), true))
      (sweepsRequests config config.engines)
      ((List.range config.engines).flatMap (sweepReport config false)) := by
  have hend : Performs (σ := σ) (sweepEngines limit (0 + config.engines) [] (SweepStats.empty.merge
      (.ofRuns ((List.range' 0 config.engines).flatMap (sweepVerdicts config false)))))
      (Bus.serve a ((List.range' 0 config.engines).flatMap (sweepRequests config)))
      (.ok (SweepStats.empty.merge
        (.ofRuns ((List.range' 0 config.engines).flatMap (sweepVerdicts config false))), true))
      [] [] :=
    performs_pure _ _
  have hcount : 0 + config.engines ≤ config.engines := by omega
  have hall := performs_sweepEngines_healthy h hcount (fun j _ hj => hhealthy j (by omega)) hlimit
    hend
  rw [List.append_nil, List.append_nil, List.append_nil, SweepStats.empty_merge,
    ← List.range_eq_range'] at hall
  exact hall

theorem performs_sweepEngines_first (h : Afu.Idle config faults a) {k : Nat}
    (hk : k < config.engines) (hhealthy : ∀ j < k, faults j = ⟨false, false⟩)
    (hlimit : config.busyPolls < limit) {r : Except BenchError (SweepStats × Bool)}
    {more : List Bus.Request} {out : List Console.Output}
    (hrest : Performs (σ := σ)
      (sweepEngines limit k
        (config.reported :: List.replicate (config.engines - k - 1) config.reported)
        (.ofRuns ((List.range k).flatMap (sweepVerdicts config false))))
      (Bus.serve a (sweepsRequests config k)) r more out) :
    Performs (σ := σ)
      (sweepEngines limit 0 (List.replicate config.engines config.reported) .empty) a r
      (sweepsRequests config k ++ more)
      ((List.range k).flatMap (sweepReport config false) ++ out) := by
  have hcaps : List.replicate config.engines config.reported =
      List.replicate k config.reported ++
        config.reported :: List.replicate (config.engines - k - 1) config.reported := by
    rw [← List.replicate_succ, List.replicate_append_replicate]
    congr 1
    omega
  rw [sweepsRequests, List.range_eq_range'] at hrest ⊢
  rw [hcaps]
  refine performs_sweepEngines_healthy h (by omega) (fun j _ hj => hhealthy j (by omega)) hlimit ?_
  rw [SweepStats.empty_merge, Nat.zero_add]
  exact hrest

theorem performs_sweepEngines_corrupt (h : Afu.Idle config faults a) {k : Nat}
    (hk : k < config.engines) (hhealthy : ∀ j < k, faults j = ⟨false, false⟩)
    (hfault : faults k = ⟨false, true⟩) (hsizes : 0 < config.reported.sweepSizes.length)
    (hlimit : config.busyPolls < limit) :
    Performs (σ := σ)
      (sweepEngines limit 0 (List.replicate config.engines config.reported) .empty) a
      (.ok (.ofRuns ((List.range k).flatMap (sweepVerdicts config false) ++
        sweepVerdicts config true k), false))
      (sweepsRequests config k ++ sweepRequests config k)
      ((List.range k).flatMap (sweepReport config false) ++ sweepReport config true k) := by
  have hsweep := performs_sweep (σ := σ) (idle_sweeps h (Nat.le_of_lt hk)) hk (by rw [hfault])
    hlimit
  rw [hfault] at hsweep
  have hfailed : 0 < (SweepStats.ofRuns (sweepVerdicts config true k)).failed := by
    rw [failed_sweepVerdicts, if_pos rfl]
    omega
  refine performs_sweepEngines_first h hk hhealthy hlimit ?_
  rw [sweepEngines, ← List.append_nil (sweepRequests config k),
    ← List.append_nil (sweepReport config true k)]
  refine hsweep.bind ?_
  rw [if_pos hfailed, SweepStats.ofRuns_append]
  exact performs_pure _ _

theorem performs_sweepEngines_hang (h : Afu.Idle config faults a) {eng : Nat}
    (heng : eng < config.engines) {point : SweepPoint} {points : List SweepPoint}
    (hpoints : config.points eng = point :: points) (hlimit : 0 < limit)
    (hstuck : (faults eng).stalled = true ∨ limit ≤ config.busyPolls)
    (rest : List Capabilities) (stats : SweepStats) :
    Performs (σ := σ) (sweepEngines limit eng (config.reported :: rest) stats) a
      (.error (.hang limit)) (hungRequests eng limit point .write)
      (.line (sweepHeading config eng) :: hungReport eng limit point .write a) := by
  rw [sweepEngines]
  exact (performs_sweep_hang h heng hpoints hlimit hstuck).bind_error

theorem performs_sweepEngines_stalled (h : Afu.Idle config faults a) {k : Nat}
    (hk : k < config.engines) (hhealthy : ∀ j < k, faults j = ⟨false, false⟩)
    (hfault : (faults k).stalled = true) {point : SweepPoint} {points : List SweepPoint}
    (hpoints : config.points k = point :: points) (hlimit : config.busyPolls < limit) :
    Performs (σ := σ)
      (sweepEngines limit 0 (List.replicate config.engines config.reported) .empty) a
      (.error (.hang limit)) (sweepsRequests config k ++ hungRequests k limit point .write)
      ((List.range k).flatMap (sweepReport config false) ++
        .line (sweepHeading config k) ::
          hungReport k limit point .write (Bus.serve a (sweepsRequests config k))) := by
  refine performs_sweepEngines_first h hk hhealthy hlimit ?_
  exact performs_sweepEngines_hang (idle_sweeps h (Nat.le_of_lt hk)) hk hpoints
    (Nat.zero_lt_of_lt hlimit) (Or.inl hfault) _ _

end AfuBench.Bench
