import AfuBench.Proofs.SweepCounters
import Mathlib.Algebra.BigOperators.Fin

namespace AfuBench

namespace SweepStats

theorem ofRuns_perm {runs others : List Run} (h : runs.Perm others) :
    ofRuns runs = ofRuns others := by
  induction h with
  | nil => rfl
  | cons r _ ih => rw [ofRuns_cons, ofRuns_cons, ih]
  | swap r t runs =>
    rw [ofRuns_cons, ofRuns_cons, ofRuns_cons, ofRuns_cons, ← merge_assoc, ← merge_assoc,
      merge_comm (ofRun t)]
  | trans _ _ ih ih' => rw [ih, ih']

theorem get_tripBuckets_ofRuns (runs : List Run) (i : Fin 10) :
    (ofRuns runs).tripBuckets.get i = runs.countP fun r => i.val == bucketOf r.trips :=
  tripBuckets_ofRuns runs i

theorem tripBuckets_ofRuns_of_lt (runs : List Run) {i : Fin 10} (hi : i.val < 9) :
    (ofRuns runs).tripBuckets.get i = runs.countP fun r => r.trips == i.val := by
  rw [get_tripBuckets_ofRuns]
  refine List.countP_congr fun r _ => ?_
  rw [beq_iff_eq, beq_iff_eq, bucketOf]
  omega

theorem tripBuckets_ofRuns_last (runs : List Run) :
    (ofRuns runs).tripBuckets.get (Fin.last 9) = runs.countP fun r => decide (9 ≤ r.trips) := by
  rw [get_tripBuckets_ofRuns]
  refine List.countP_congr fun r _ => ?_
  rw [beq_iff_eq, decide_eq_true_iff, bucketOf, Fin.val_last]
  omega

theorem sum_tripBuckets_ofRuns (runs : List Run) :
    ∑ i : Fin 10, (ofRuns runs).tripBuckets.get i = runs.length := by
  simp only [get_tripBuckets_ofRuns]
  induction runs with
  | nil => exact Finset.sum_const_zero
  | cons r runs ih =>
    have hone : ∑ i : Fin 10, (i.val == bucketOf r.trips).toNat = 1 := by
      rw [Finset.sum_eq_single ⟨bucketOf r.trips, bucketOf_lt r.trips⟩]
      · rw [beq_self_eq_true, Bool.toNat_true]
      · intro i _ hne
        rw [beq_false_of_ne fun h => hne (Fin.ext h), Bool.toNat_false]
      · exact fun hout => absurd (Finset.mem_univ _) hout
    simp only [countP_cons_eq, Finset.sum_add_distrib, hone, ih, List.length_cons]
    exact Nat.add_comm 1 runs.length

structure Counts (runs : List Run) (s : SweepStats) : Prop where
  passed : s.passed = runs.countP Run.passed
  failed : s.failed = runs.countP (!·.passed)
  unchecked : s.unchecked = runs.countP (!·.checked)
  total : s.passed + s.failed = s.total ∧ s.total = runs.length
  unchecked_le : s.unchecked ≤ s.total
  sum_buckets : s.total = ∑ i : Fin 10, s.tripBuckets.get i
  bucket : ∀ i : Fin 10, i.val < 9 → s.tripBuckets.get i = runs.countP fun r => r.trips == i.val
  last_bucket : s.tripBuckets.get (Fin.last 9) = runs.countP fun r => decide (9 ≤ r.trips)
  longest : 0 < s.total →
    (∃ r ∈ runs, r.trips = s.maxTrips) ∧ ∀ r ∈ runs, r.trips ≤ s.maxTrips
  highest : 0 < s.total → ∀ i : Fin 10,
    (i.val = min s.maxTrips 9 → 0 < s.tripBuckets.get i) ∧
      (min s.maxTrips 9 < i.val → s.tripBuckets.get i = 0)

theorem highest_ofRuns {runs : List Run} (hne : runs ≠ []) (i : Fin 10) :
    (i.val = min (ofRuns runs).maxTrips 9 → 0 < (ofRuns runs).tripBuckets.get i) ∧
      (min (ofRuns runs).maxTrips 9 < i.val → (ofRuns runs).tripBuckets.get i = 0) := by
  rw [get_tripBuckets_ofRuns]
  constructor
  · intro hi
    obtain ⟨r, hr, hmax⟩ := exists_trips_eq_maxTrips_ofRuns hne
    refine List.countP_pos_iff.2 ⟨r, hr, ?_⟩
    rw [hi, bucketOf, hmax, beq_self_eq_true]
  · intro hi
    refine List.countP_eq_zero.2 fun r hr => ?_
    have hle := trips_le_maxTrips_ofRuns hr
    rw [beq_iff_eq, bucketOf]
    omega

theorem counts_ofRuns (runs : List Run) : Counts runs (ofRuns runs) where
  passed := passed_ofRuns runs
  failed := failed_ofRuns runs
  unchecked := unchecked_ofRuns runs
  total := ⟨rfl, total_ofRuns runs⟩
  unchecked_le := by
    rw [unchecked_ofRuns, total_ofRuns]
    exact List.countP_le_length
  sum_buckets := (total_ofRuns runs).trans (sum_tripBuckets_ofRuns runs).symm
  bucket _ hi := tripBuckets_ofRuns_of_lt runs hi
  last_bucket := tripBuckets_ofRuns_last runs
  longest hpos := by
    rw [total_ofRuns] at hpos
    exact ⟨exists_trips_eq_maxTrips_ofRuns (List.length_pos_iff.1 hpos),
      fun _ => trips_le_maxTrips_ofRuns⟩
  highest hpos := by
    rw [total_ofRuns] at hpos
    exact highest_ofRuns (List.length_pos_iff.1 hpos)

end SweepStats

inductive Tally where
  | empty
  | record (t : Tally) (r : Run)
  | merge (t u : Tally)
  deriving DecidableEq, Repr

namespace Tally

def stats : Tally → SweepStats
  | empty => .empty
  | record t r => t.stats.record r
  | merge t u => t.stats.merge u.stats

def runs : Tally → List Run
  | empty => []
  | record t r => t.runs ++ [r]
  | merge t u => t.runs ++ u.runs

theorem stats_eq_ofRuns (t : Tally) : t.stats = .ofRuns t.runs := by
  induction t with
  | empty => rfl
  | record t r ih =>
    rw [stats, runs, ih, SweepStats.ofRuns, SweepStats.ofRuns, List.foldl_append]
    rfl
  | merge t u iht ihu => rw [stats, runs, iht, ihu, SweepStats.ofRuns_append]

theorem counts_stats (t : Tally) :
    t.stats.Counts t.runs ∧ ∀ u : Tally, t.runs.Perm u.runs → t.stats = u.stats := by
  rw [stats_eq_ofRuns]
  refine ⟨SweepStats.counts_ofRuns t.runs, fun u h => ?_⟩
  rw [stats_eq_ofRuns, SweepStats.ofRuns_perm h]

def twoEngines : Tally :=
  .merge (.record (.record .empty ⟨true, false, 2⟩) ⟨true, true, 25⟩)
    (.record (.merge (.record .empty ⟨false, true, 9⟩) .empty) ⟨true, true, 0⟩)

def inOneGo : Tally :=
  .record (.record (.record (.record .empty ⟨true, true, 0⟩) ⟨false, true, 9⟩) ⟨true, true, 25⟩)
    ⟨true, false, 2⟩

theorem counts_stats_twoEngines :
    twoEngines.runs.Perm inOneGo.runs ∧ twoEngines.stats = inOneGo.stats ∧
      0 < twoEngines.stats.total ∧ twoEngines.stats.maxTrips = 25 ∧
      (∀ r ∈ twoEngines.runs, r.trips ≤ 25) ∧ 0 < twoEngines.stats.tripBuckets.get (Fin.last 9) := by
  have hperm : twoEngines.runs.Perm inOneGo.runs := by decide
  have hpos : 0 < twoEngines.stats.total := by decide
  have hmax : twoEngines.stats.maxTrips = 25 := by decide
  obtain ⟨hcounts, horder⟩ := counts_stats twoEngines
  refine ⟨hperm, horder inOneGo hperm, hpos, hmax, hmax ▸ (hcounts.longest hpos).2, ?_⟩
  exact (hcounts.highest hpos (Fin.last 9)).1 (by rw [hmax]; rfl)

end Tally

end AfuBench
