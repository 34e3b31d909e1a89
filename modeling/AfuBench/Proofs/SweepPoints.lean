import AfuBench.Bench.Bandwidth
import AfuBench.Proofs.LaneHash
import AfuBench.Proofs.RegisterFields
import AfuBench.Proofs.Slots
import AfuBench.Proofs.VectorSequence

namespace AfuBench

theorem mem_sizesFrom {next : Nat → Nat} {max steps start size : Nat}
    (hnext : ∀ s, 0 < s → s ≤ max → 0 < next s) (hstart : 0 < start)
    (h : size ∈ sizesFrom next max steps start) : 0 < size ∧ size ≤ max := by
  induction steps generalizing start with
  | zero => cases h
  | succ steps ih =>
    rw [sizesFrom] at h
    by_cases hle : start ≤ max
    · rw [if_pos hle] at h
      rcases List.mem_cons.1 h with rfl | hrest
      · exact ⟨hstart, hle⟩
      · exact ih (hnext start hstart hle) hrest
    · rw [if_neg hle] at h
      cases h

namespace Capabilities

theorem nextSweepSize_pos (c : Capabilities) {size : Nat} (hpos : 0 < size)
    (hle : size ≤ c.maxBurst) : 0 < c.nextSweepSize size := by
  rw [nextSweepSize]
  split
  · omega
  · split <;> omega

theorem nextBandwidthSize_pos (c : Capabilities) {size : Nat} (hpos : 0 < size) :
    0 < c.nextBandwidthSize size := by
  rw [nextBandwidthSize]
  split <;> omega

theorem mem_sweepSizes {c : Capabilities} {size : Nat} (h : size ∈ c.sweepSizes) :
    0 < size ∧ size ≤ c.maxBurst :=
  mem_sizesFrom (fun _ => c.nextSweepSize_pos) (by decide) h

theorem mem_bandwidthSizes {c : Capabilities} {size : Nat} (h : size ∈ c.bandwidthSizes) :
    0 < size ∧ size ≤ c.maxBurst :=
  mem_sizesFrom (fun _ hpos _ => c.nextBandwidthSize_pos hpos) (by decide) h

theorem length_sweepGrid (c : Capabilities) : c.sweepGrid.length = 4 * c.sweepSizes.length := by
  rw [sweepGrid, List.length_flatMap]
  induction c.sweepSizes with
  | nil => rfl
  | cons size sizes ih =>
    rw [List.map_cons, List.sum_cons, ih, List.length_map, List.length_cons]
    change 4 + 4 * sizes.length = 4 * (sizes.length + 1)
    omega

end Capabilities

def regionHash (words eng lines : Nat) : UInt64 :=
  streamHash words (vectors (engineSeed eng) words lines)

theorem expectedHash_engineSeed {width words : Nat} (h : wordCount width = .ok words)
    (eng lines : Nat) :
    expectedHash width (engineSeed eng) lines = .ok (regionHash words eng lines) :=
  expectedHash_of_wordCount h (engineSeed eng) lines

theorem sweepPoints_of_wordCount {c : Capabilities} {words : Nat} (h : wordCount c.width = .ok words)
    (eng : Nat) :
    sweepPoints eng c = .ok (c.sweepGrid.map fun (size, count) =>
      ⟨size, count, regionHash words eng (count * size)⟩) := by
  have hpoint : (fun (size, count) =>
      (expectedHash c.width (engineSeed eng) (count * size)).map fun expected =>
        (⟨size, count, expected⟩ : SweepPoint)) =
      fun p : Nat × Nat => (pure ⟨p.1, p.2, regionHash words eng (p.2 * p.1)⟩ :
        Except DataError _) := by
    funext ⟨size, count⟩
    simp only [expectedHash_engineSeed h]
    rfl
  rw [sweepPoints, hpoint, List.mapM_pure]
  rfl

theorem sweepPoints_of_invalid {c : Capabilities} {e : DataError} (h : wordCount c.width = .error e)
    (eng : Nat) : sweepPoints eng c = if c.sweepGrid = [] then .ok [] else .error e := by
  have hhash : ∀ lines, expectedHash c.width (engineSeed eng) lines = .error e := by
    intro lines
    rw [expectedHash_eq, h]
    rfl
  rw [sweepPoints]
  cases c.sweepGrid with
  | nil => rfl
  | cons cell cells =>
    simp only [if_neg (List.cons_ne_nil cell cells), List.mapM_cons, hhash]
    rfl

theorem sweepPoints_eq_ok {c : Capabilities} {eng : Nat} {points : List SweepPoint}
    (h : sweepPoints eng c = .ok points) :
    points.map (fun point => (point.size, point.count)) = c.sweepGrid ∧
      ∀ point ∈ points,
        expectedHash c.width (engineSeed eng) (point.count * point.size) = .ok point.expected := by
  cases hwords : wordCount c.width with
  | ok words =>
    rw [sweepPoints_of_wordCount hwords, Except.ok.injEq] at h
    subst h
    refine ⟨?_, ?_⟩
    · rw [List.map_map]
      exact List.map_id _
    · intro point hpoint
      obtain ⟨⟨size, count⟩, _, rfl⟩ := List.mem_map.1 hpoint
      exact expectedHash_engineSeed hwords eng _
  | error e =>
    rw [sweepPoints_of_invalid hwords] at h
    split at h
    case isTrue hempty =>
      cases h
      exact ⟨hempty.symm, fun _ hpoint => absurd hpoint List.not_mem_nil⟩
    case isFalse => cases h

theorem sweepPoints_eq_error {c : Capabilities} {eng : Nat} {e : DataError}
    (h : sweepPoints eng c = .error e) : c.sweepGrid ≠ [] ∧ e = .invalidLength c.width := by
  cases hwords : wordCount c.width with
  | ok words =>
    rw [sweepPoints_of_wordCount hwords] at h
    cases h
  | error failure =>
    rw [sweepPoints_of_invalid hwords] at h
    split at h
    case isTrue => cases h
    case isFalse hgrid =>
      cases h
      refine ⟨hgrid, ?_⟩
      rw [wordCount] at hwords
      split at hwords
      · cases hwords
        rfl
      · cases hwords

namespace AfuConfig

def region (config : AfuConfig) (eng count : Nat) : List (List UInt64) :=
  vectors (engineSeed eng) config.lineWords count

def points (config : AfuConfig) (eng : Nat) : List SweepPoint :=
  config.reported.sweepGrid.map fun (size, count) =>
    ⟨size, count, streamHash config.lineWords (config.region eng (count * size))⟩

theorem sweepPoints_eq {config : AfuConfig} (hv : config.Valid) (eng : Nat) :
    sweepPoints eng config.reported = .ok (config.points eng) := by
  have hwords : wordCount config.reported.width = .ok config.lineWords := by
    rw [reported_eq hv]
    exact wordCount_of_valid hv
  exact sweepPoints_of_wordCount hwords eng

theorem length_points (config : AfuConfig) (eng : Nat) :
    (config.points eng).length = 4 * config.reported.sweepSizes.length := by
  rw [points, List.length_map, Capabilities.length_sweepGrid]

end AfuConfig

structure SweepPoint.Fits (config : AfuConfig) (eng : Nat) (point : SweepPoint) : Prop where
  size_pos : 0 < point.size
  size_lt : point.size < 2 ^ 16
  count_pos : 0 < point.count
  count_lt : point.count < 2 ^ 16
  expected : point.expected =
    streamHash config.lineWords (config.region eng (point.count * point.size))

theorem AfuConfig.fits_of_mem_points {config : AfuConfig} {eng : Nat} {point : SweepPoint}
    (h : point ∈ config.points eng) : point.Fits config eng := by
  obtain ⟨⟨size, count⟩, hgrid, rfl⟩ := List.mem_map.1 h
  obtain ⟨_, hsize, hcount⟩ := List.mem_flatMap.1 hgrid
  obtain ⟨_, hmem, heq⟩ := List.mem_map.1 hcount
  cases heq
  obtain ⟨hpos, hle⟩ := Capabilities.mem_sweepSizes hsize
  have hlt := config.maxBurst_reported_lt
  have hcounts : ∀ n ∈ burstCounts, 0 < n ∧ n < 2 ^ 16 := by decide
  exact ⟨hpos, Nat.lt_of_le_of_lt hle (Nat.lt_trans hlt (by decide)), (hcounts _ hmem).1,
    (hcounts _ hmem).2, rfl⟩

end AfuBench
