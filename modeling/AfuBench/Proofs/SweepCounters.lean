import AfuBench.Bench.Stats

namespace AfuBench.SweepStats

def ofRuns (runs : List Run) : SweepStats :=
  runs.foldl record empty

theorem foldl_record (stats : SweepStats) (runs : List Run) :
    runs.foldl record stats = stats.merge (ofRuns runs) := by
  induction runs generalizing stats with
  | nil => rw [ofRuns, List.foldl_nil, List.foldl_nil, merge_comm, empty_merge]
  | cons r runs ih =>
    rw [ofRuns, List.foldl_cons, List.foldl_cons, ih, ih (empty.record r),
      record_eq_merge, record_eq_merge, empty_merge, merge_assoc]

theorem ofRuns_cons (r : Run) (runs : List Run) :
    ofRuns (r :: runs) = (ofRun r).merge (ofRuns runs) := by
  rw [ofRuns, List.foldl_cons, foldl_record, record_eq_merge, empty_merge]

theorem ofRuns_append (before after : List Run) :
    ofRuns (before ++ after) = (ofRuns before).merge (ofRuns after) := by
  rw [ofRuns, List.foldl_append, foldl_record, ← ofRuns]

theorem countP_cons_eq (select : Run → Bool) (r : Run) (runs : List Run) :
    (r :: runs).countP select = (select r).toNat + runs.countP select := by
  rw [List.countP_cons, Nat.add_comm]
  cases select r <;> rfl

theorem passed_ofRuns (runs : List Run) : (ofRuns runs).passed = runs.countP Run.passed := by
  induction runs with
  | nil => rfl
  | cons r runs ih =>
    rw [ofRuns_cons, countP_cons_eq, ← ih]
    rfl

theorem failed_ofRuns (runs : List Run) : (ofRuns runs).failed = runs.countP (!·.passed) := by
  induction runs with
  | nil => rfl
  | cons r runs ih =>
    rw [ofRuns_cons, countP_cons_eq, ← ih]
    rfl

theorem unchecked_ofRuns (runs : List Run) :
    (ofRuns runs).unchecked = runs.countP (!·.checked) := by
  induction runs with
  | nil => rfl
  | cons r runs ih =>
    rw [ofRuns_cons, countP_cons_eq, ← ih]
    rfl

theorem total_ofRuns (runs : List Run) : (ofRuns runs).total = runs.length := by
  rw [total, passed_ofRuns, failed_ofRuns, List.length_eq_countP_add_countP Run.passed]
  simp only [Bool.not_eq_true, Bool.decide_eq_false]

theorem tripBuckets_ofRuns (runs : List Run) (i : Fin 10) :
    (ofRuns runs).tripBuckets[i] = runs.countP fun r => i.val == bucketOf r.trips := by
  induction runs with
  | nil => simp [ofRuns, empty]
  | cons r runs ih =>
    have hzip : (ofRuns (r :: runs)).tripBuckets[i] =
        (i.val == bucketOf r.trips).toNat + (ofRuns runs).tripBuckets[i] := by
      rw [ofRuns_cons]
      simp [merge, ofRun]
    rw [hzip, ih, countP_cons_eq]

theorem maxTrips_ofRuns_cons (r : Run) (runs : List Run) :
    (ofRuns (r :: runs)).maxTrips = max r.trips (ofRuns runs).maxTrips := by
  rw [ofRuns_cons]
  rfl

theorem trips_le_maxTrips_ofRuns {r : Run} {runs : List Run} (hr : r ∈ runs) :
    r.trips ≤ (ofRuns runs).maxTrips := by
  induction runs with
  | nil => exact absurd hr List.not_mem_nil
  | cons t runs ih =>
    rw [maxTrips_ofRuns_cons]
    rcases List.mem_cons.1 hr with rfl | hrest
    · exact Nat.le_max_left _ _
    · exact Nat.le_trans (ih hrest) (Nat.le_max_right _ _)

theorem exists_trips_eq_maxTrips_ofRuns {runs : List Run} (hne : runs ≠ []) :
    ∃ r ∈ runs, r.trips = (ofRuns runs).maxTrips := by
  induction runs with
  | nil => exact absurd rfl hne
  | cons r runs ih =>
    rw [maxTrips_ofRuns_cons]
    rcases Nat.le_total (ofRuns runs).maxTrips r.trips with hle | hle
    · exact ⟨r, List.mem_cons_self, (Nat.max_eq_left hle).symm⟩
    rw [Nat.max_eq_right hle]
    cases runs with
    | nil => exact ⟨r, List.mem_cons_self, Nat.le_antisymm hle (Nat.zero_le _) ▸ rfl⟩
    | cons t runs =>
      obtain ⟨u, hu, htrips⟩ := ih (List.cons_ne_nil t runs)
      exact ⟨u, List.mem_cons_of_mem r hu, htrips⟩

theorem maxTrips_ofRuns {trips : Nat} {runs : List Run} (hne : runs ≠ [])
    (h : ∀ r ∈ runs, r.trips = trips) : (ofRuns runs).maxTrips = trips := by
  obtain ⟨r, hr, hmax⟩ := exists_trips_eq_maxTrips_ofRuns hne
  rw [← hmax, h r hr]

theorem tripBuckets_ofRuns_of_trips {trips : Nat} {runs : List Run}
    (h : ∀ r ∈ runs, r.trips = trips) (i : Fin 10) :
    (ofRuns runs).tripBuckets[i] = if i.val = min trips 9 then runs.length else 0 := by
  rw [tripBuckets_ofRuns]
  split
  case isTrue hi =>
    refine List.countP_eq_length.2 ?_
    intro r hr
    rw [h r hr, bucketOf, hi, beq_self_eq_true]
  case isFalse hi =>
    refine List.countP_eq_zero.2 ?_
    intro r hr
    rw [h r hr, bucketOf, beq_false_of_ne hi]
    exact Bool.false_ne_true

end AfuBench.SweepStats
