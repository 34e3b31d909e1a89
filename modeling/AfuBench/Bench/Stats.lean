import AfuBench.Digits

namespace AfuBench

/-- A completed run; a run that only writes is not checked, and passes. -/
structure Run where
  passed : Bool
  checked : Bool
  trips : Nat
  deriving DecidableEq, Repr

structure SweepStats where
  passed : Nat
  failed : Nat
  unchecked : Nat
  maxTrips : Nat
  /-- Runs by their number of trips; the last bucket takes all larger numbers. -/
  tripBuckets : Vector Nat 10
  deriving DecidableEq, Repr

namespace SweepStats

def empty : SweepStats :=
  ⟨0, 0, 0, 0, Vector.replicate 10 0⟩

def bucketOf (trips : Nat) : Nat :=
  min trips 9

def ofRun (r : Run) : SweepStats where
  passed := r.passed.toNat
  failed := (!r.passed).toNat
  unchecked := (!r.checked).toNat
  maxTrips := r.trips
  tripBuckets := Vector.ofFn fun i => (i.val == bucketOf r.trips).toNat

def merge (a b : SweepStats) : SweepStats where
  passed := a.passed + b.passed
  failed := a.failed + b.failed
  unchecked := a.unchecked + b.unchecked
  maxTrips := max a.maxTrips b.maxTrips
  tripBuckets := Vector.zipWith (· + ·) a.tripBuckets b.tripBuckets

theorem bucketOf_lt (trips : Nat) : bucketOf trips < 10 :=
  Nat.lt_succ_of_le (Nat.min_le_right trips 9)

def record (s : SweepStats) (r : Run) : SweepStats where
  passed := if r.passed then s.passed + 1 else s.passed
  failed := if r.passed then s.failed else s.failed + 1
  unchecked := if r.checked then s.unchecked else s.unchecked + 1
  maxTrips := max s.maxTrips r.trips
  tripBuckets := s.tripBuckets.set (bucketOf r.trips)
    (s.tripBuckets.get ⟨bucketOf r.trips, bucketOf_lt r.trips⟩ + 1) (bucketOf_lt r.trips)

def total (s : SweepStats) : Nat :=
  s.passed + s.failed

def bucketLine (count index : Nat) : String :=
  "[" ++ padLeft 2 ' ' (decimal index) ++ (if index = 9 then "+" else "") ++ "]: " ++
    decimal count

def report (s : SweepStats) : List String :=
  ["", "Sweep Results",
    "Runs:      " ++ decimal s.total,
    "Passed:    " ++ decimal s.passed ++ " (" ++ decimal s.unchecked ++ " write-only)",
    "Failed:    " ++ decimal s.failed,
    "Max polls: " ++ decimal s.maxTrips,
    "Completion polls:"] ++
  (s.tripBuckets.toList.zipIdx.filter (0 < ·.1)).map fun (count, index) => bucketLine count index

theorem record_eq_merge (s : SweepStats) (r : Run) : s.record r = s.merge (ofRun r) := by
  rw [record, merge, ofRun, mk.injEq]
  refine ⟨?_, ?_, ?_, rfl, ?_⟩
  · cases r.passed <;> rfl
  · cases r.passed <;> rfl
  · cases r.checked <;> rfl
  · ext i hi
    by_cases h : bucketOf r.trips = i
    · simp [Vector.get, h]
    · simp [h, Ne.symm h]

theorem merge_assoc (a b c : SweepStats) : (a.merge b).merge c = a.merge (b.merge c) := by
  simp only [merge, mk.injEq, Nat.add_assoc, Nat.max_assoc, true_and]
  ext i hi
  simp [Nat.add_assoc]

theorem merge_comm (a b : SweepStats) : a.merge b = b.merge a := by
  simp only [merge, mk.injEq, Nat.add_comm, Nat.max_comm, true_and]
  ext i hi
  simp [Nat.add_comm]

theorem empty_merge (a : SweepStats) : empty.merge a = a := by
  simp only [merge, empty, Nat.zero_add, Nat.zero_max]
  congr 1
  ext i hi
  simp

end SweepStats

end AfuBench
