import AfuBench.Proofs.LaneHash
/-!
The reduced hash of a stream by two single-lane hashes. A beat is linear over exclusive or, so the
buckets of half a vector may be summed up before the beats instead of after them.
-/

namespace AfuBench

namespace RollingHash

theorem step_xor (h k d e : UInt32) : step (h ^^^ k) (d ^^^ e) = step h d ^^^ step k e := by
  apply UInt32.toBitVec_inj.1
  apply BitVec.eq_of_getLsbD_eq
  intro i hi
  rw [UInt32.toBitVec_xor, BitVec.getLsbD_xor, getLsbD_step _ _ hi, getLsbD_step h d hi,
    getLsbD_step k e hi]
  simp only [UInt32.toBitVec_xor, BitVec.getLsbD_xor, Bool.and_xor_distrib_left, Bool.xor_assoc,
    Bool.xor_left_comm]

theorem step_zero : step 0 0 = 0 := by decide

end RollingHash

theorem xorAll_cons (h : UInt32) (hs : List UInt32) : xorAll (h :: hs) = h ^^^ xorAll hs := by
  have hfold : hs.foldl (· ^^^ ·) (h ^^^ 0) = h ^^^ hs.foldl (· ^^^ ·) 0 := List.foldl_assoc
  rw [UInt32.xor_zero] at hfold
  rw [xorAll, List.foldl_cons, UInt32.zero_xor, hfold, xorAll]

theorem xorAll_zipWith_step {hs ds : List UInt32} (hlen : hs.length = ds.length) :
    xorAll (List.zipWith RollingHash.step hs ds) = RollingHash.step (xorAll hs) (xorAll ds) := by
  induction hs generalizing ds with
  | nil =>
    obtain rfl := List.eq_nil_of_length_eq_zero hlen.symm
    exact RollingHash.step_zero.symm
  | cons h hs ih =>
    obtain ⟨d, ds, rfl⟩ := List.exists_cons_of_length_eq_add_one hlen.symm
    rw [List.zipWith_cons_cons, xorAll_cons, ih (Nat.succ.inj hlen), xorAll_cons, xorAll_cons,
      RollingHash.step_xor]

theorem xorAll_replicate (h : UInt32) (n : Nat) :
    xorAll (List.replicate n h) = if n % 2 = 0 then 0 else h := by
  induction n with
  | zero => rfl
  | succ n ih =>
    rw [List.replicate_succ, xorAll_cons, ih]
    by_cases heven : n % 2 = 0
    · have hodd : ¬ (n + 1) % 2 = 0 := by omega
      rw [if_pos heven, if_neg hodd, UInt32.xor_zero]
    · have hnext : (n + 1) % 2 = 0 := by omega
      rw [if_neg heven, if_pos hnext, UInt32.xor_self]

def lane (v : List UInt64) (i : Nat) : UInt32 :=
  if i % 2 = 0 then Word.lowLane (v.getD (i / 2) 0) else Word.highLane (v.getD (i / 2) 0)

def laneSum (start count : Nat) (v : List UInt64) : UInt32 :=
  xorAll ((List.range' start count).map (lane v))

theorem getElem?_lanes (v : List UInt64) {i : Nat} (hi : i < 2 * v.length) :
    (Word.lanes v)[i]? = some (lane v i) := by
  induction v generalizing i with
  | nil => exact absurd hi (Nat.not_lt_zero i)
  | cons w v ih =>
    rw [Word.lanes_cons]
    match i with
    | 0 => rfl
    | 1 => rfl
    | i + 2 =>
      rw [List.length_cons] at hi
      have hhalf : (i + 2) / 2 = i / 2 + 1 := by omega
      rw [List.getElem?_cons_succ, List.getElem?_cons_succ, ih (by omega), lane, lane,
        Nat.add_mod_right, hhalf, List.getD_cons_succ]

theorem laneSum_eq {v : List UInt64} {start count : Nat} (h : start + count ≤ 2 * v.length) :
    laneSum start count v = xorAll (((Word.lanes v).drop start).take count) := by
  rw [laneSum]
  congr 1
  apply List.ext_getElem?
  intro i
  by_cases hi : i < count
  · rw [List.getElem?_take_of_lt hi, List.getElem?_drop, getElem?_lanes v (by omega),
      List.getElem?_map, List.getElem?_range' hi, Option.map_some, Nat.one_mul]
  · rw [List.getElem?_eq_none (by simp; omega), List.getElem?_eq_none (by simp; omega)]

theorem xorAll_absorb {buckets : List UInt32} {v : List UInt64} {start count : Nat}
    (hlen : (Word.lanes v).length = buckets.length) (h : start + count ≤ buckets.length) :
    xorAll (((absorb buckets v).drop start).take count) =
      RollingHash.step (xorAll ((buckets.drop start).take count)) (laneSum start count v) := by
  have hlanes := Word.length_lanes v
  rw [laneSum_eq (by omega), absorb, List.drop_zipWith, List.take_zipWith, xorAll_zipWith_step]
  rw [List.length_take, List.length_take, List.length_drop, List.length_drop, hlen]

theorem xorAll_foldl_absorb (stream : List (List UInt64)) {buckets : List UInt32}
    {start count : Nat} (hlen : ∀ v ∈ stream, (Word.lanes v).length = buckets.length)
    (h : start + count ≤ buckets.length) :
    xorAll (((stream.foldl absorb buckets).drop start).take count) =
      RollingHash.fold (xorAll ((buckets.drop start).take count))
        (stream.map (laneSum start count)) := by
  induction stream generalizing buckets with
  | nil => rfl
  | cons v stream ih =>
    have hv := hlen v List.mem_cons_self
    have hrest : ∀ w ∈ stream, (Word.lanes w).length = (absorb buckets v).length := by
      intro w hw
      rw [length_absorb hv]
      exact hlen w (List.mem_cons_of_mem v hw)
    rw [List.foldl_cons, ih hrest (by rw [length_absorb hv]; exact h), xorAll_absorb hv h,
      List.map_cons, RollingHash.fold_cons]

theorem length_foldl_absorb {buckets : List UInt32} {stream : List (List UInt64)}
    (hlen : ∀ v ∈ stream, (Word.lanes v).length = buckets.length) :
    (stream.foldl absorb buckets).length = buckets.length := by
  rw [foldl_absorb stream buckets hlen, List.length_mapIdx]

/-- The hash that stands for the fresh buckets of half a vector: an even number of them cancels out. -/
def halfInitial (words : Nat) : UInt32 :=
  if words % 2 = 0 then 0 else RollingHash.initial

def halfHash (words start : Nat) (stream : List (List UInt64)) : UInt32 :=
  RollingHash.fold (halfInitial words) (stream.map (laneSum start words))

theorem streamHash_eq_ofLanes {words : Nat} {stream : List (List UInt64)}
    (hlen : ∀ v ∈ stream, v.length = words) :
    streamHash words stream =
      Word.ofLanes (halfHash words 0 stream) (halfHash words words stream) := by
  have hfresh : (freshBuckets (2 * words)).length = 2 * words := List.length_replicate
  have hwidth : ∀ v ∈ stream, (Word.lanes v).length = (freshBuckets (2 * words)).length := by
    intro v hv
    rw [Word.length_lanes, hlen v hv, hfresh]
  have hall := length_foldl_absorb hwidth
  rw [hfresh] at hall
  have hhalf (start : Nat) (hstart : start + words ≤ 2 * words) :
      xorAll (((stream.foldl absorb (freshBuckets (2 * words))).drop start).take words) =
        halfHash words start stream := by
    have hmin : min words (2 * words - start) = words := by omega
    rw [xorAll_foldl_absorb stream hwidth (by rw [hfresh]; exact hstart), freshBuckets,
      List.drop_replicate, List.take_replicate, hmin, xorAll_replicate, halfHash, halfInitial]
  have hlow := hhalf 0 (by omega)
  have hhigh := hhalf words (by omega)
  rw [List.drop_zero] at hlow
  rw [List.take_of_length_le (by rw [List.length_drop, hall]; omega)] at hhigh
  rw [streamHash, reduce, hall, Nat.mul_div_cancel_left words (by decide), hlow, hhigh]

namespace Checker

def feed (c : Checker) (stream : List (List UInt64)) : Except DataError Checker :=
  stream.foldlM update c

theorem update_eq_ok_iff {c d : Checker} {v : List UInt64} {words : Nat} (hwords : 0 < words)
    (hc : c.buckets.length = 2 * words) :
    c.update v = .ok d ↔ v.length = words ∧ d = ⟨absorb c.buckets v⟩ := by
  rw [update, absorbVector]
  by_cases hv : v.length = words
  · have hne : ¬ v.length = 0 := by omega
    have hmatch : ¬ c.buckets.length ≠ 2 * v.length := by omega
    rw [if_neg hne, if_neg hmatch]
    simp only [Except.map, Except.ok.injEq, hv, true_and, eq_comm]
  · have hrefused : ∀ e : DataError, Except.map Checker.mk (.error e) ≠ .ok d := by simp [Except.map]
    split
    · simp [hv, hrefused]
    · rw [if_pos (by omega)]
      simp [hv, hrefused]

theorem feed_eq_ok_iff {c d : Checker} {stream : List (List UInt64)} {words : Nat}
    (hwords : 0 < words) (hc : c.buckets.length = 2 * words) :
    c.feed stream = .ok d ↔
      (∀ v ∈ stream, v.length = words) ∧ d = ⟨stream.foldl absorb c.buckets⟩ := by
  induction stream generalizing c with
  | nil => simp [feed, pure, Except.pure, eq_comm]
  | cons v stream ih =>
    have hstep : c.feed (v :: stream) = (c.update v >>= fun b => b.feed stream) := rfl
    rw [hstep, List.forall_mem_cons, List.foldl_cons]
    by_cases hv : v.length = words
    · have hupdate : c.update v = .ok ⟨absorb c.buckets v⟩ :=
        (update_eq_ok_iff hwords hc).2 ⟨hv, rfl⟩
      have hnext : (absorb c.buckets v).length = 2 * words := by
        rw [length_absorb (by rw [Word.length_lanes, hv, hc]), hc]
      rw [hupdate]
      exact (ih (c := ⟨absorb c.buckets v⟩) hnext).trans (by simp only [hv, true_and])
    · cases hupdate : c.update v with
      | ok b => exact absurd ((update_eq_ok_iff hwords hc).1 hupdate).1 hv
      | error e => simp [hv, bind, Except.bind]

/-- The checker's value of a stream is made of two single-lane hashes, one of the summed lower lanes
and one of the summed upper lanes. So each half of the value depends on its own lanes alone. -/
theorem value_feed_eq_ofLanes {words : Nat} (hwords : 0 < words) {stream : List (List UInt64)}
    (hlen : ∀ v ∈ stream, v.length = words) :
    ∃ fresh final, Checker.new (8 * words) = .ok fresh ∧ fresh.feed stream = .ok final ∧
      Word.lowLane final.value = halfHash words 0 stream ∧
      Word.highLane final.value = halfHash words words stream ∧
      final.value = Word.ofLanes (halfHash words 0 stream) (halfHash words words stream) ∧
      ∀ other last, fresh.feed other = .ok last →
        (other.map (laneSum 0 words) = stream.map (laneSum 0 words) →
          Word.lowLane last.value = Word.lowLane final.value) ∧
        (other.map (laneSum words words) = stream.map (laneSum words words) →
          Word.highLane last.value = Word.highLane final.value) := by
  have hfresh : (freshBuckets (2 * words)).length = 2 * words := List.length_replicate
  have hvalue : ∀ other, (∀ v ∈ other, v.length = words) →
      value ⟨other.foldl absorb (freshBuckets (2 * words))⟩ =
        Word.ofLanes (halfHash words 0 other) (halfHash words words other) :=
    fun other hother => streamHash_eq_ofLanes hother
  refine ⟨⟨freshBuckets (2 * words)⟩, ⟨stream.foldl absorb (freshBuckets (2 * words))⟩, ?_,
    (feed_eq_ok_iff hwords hfresh).2 ⟨hlen, rfl⟩, ?_, ?_, hvalue stream hlen, ?_⟩
  · rw [Checker.new, wordCount_eight_mul hwords]
    rfl
  · rw [hvalue stream hlen, Word.lowLane_ofLanes]
  · rw [hvalue stream hlen, Word.highLane_ofLanes]
  · intro other last hfed
    obtain ⟨hother, rfl⟩ := (feed_eq_ok_iff (c := ⟨freshBuckets (2 * words)⟩) hwords hfresh).1 hfed
    rw [hvalue stream hlen, hvalue other hother]
    simp only [Word.lowLane_ofLanes, Word.highLane_ofLanes, halfHash]
    refine ⟨?_, ?_⟩
    · intro hsums
      rw [hsums]
    · intro hsums
      rw [hsums]

/-- Three words to a vector: the middle word has its low lane in the lower half and its high lane in
the upper one. -/
def threeWordStream : List (List UInt64) :=
  [[0x100000002, 0x300000004, 0x500000006], [7, 0x800000000, 9]]

theorem value_feed_eq_ofLanes_three_words :
    threeWordStream.map (laneSum 0 3) = [2 ^^^ 1 ^^^ 4, 7] ∧
      threeWordStream.map (laneSum 3 3) = [3 ^^^ 6 ^^^ 5, 8 ^^^ 9] ∧
      ∃ fresh final, Checker.new 24 = .ok fresh ∧ fresh.feed threeWordStream = .ok final ∧
        Word.lowLane final.value = RollingHash.fold RollingHash.initial [7, 7] ∧
        Word.highLane final.value = RollingHash.fold RollingHash.initial [0, 1] := by
  have hlow : threeWordStream.map (laneSum 0 3) = [2 ^^^ 1 ^^^ 4, 7] := by decide
  have hhigh : threeWordStream.map (laneSum 3 3) = [3 ^^^ 6 ^^^ 5, 8 ^^^ 9] := by decide
  have hlen : ∀ v ∈ threeWordStream, v.length = 3 := by decide
  obtain ⟨fresh, final, hnew, hfed, hlowHash, hhighHash, _⟩ :=
    value_feed_eq_ofLanes (by decide) hlen
  refine ⟨hlow, hhigh, fresh, final, hnew, hfed, ?_, ?_⟩
  · rw [hlowHash, halfHash, hlow]
    rfl
  · rw [hhighHash, halfHash, hhigh]
    rfl

end Checker

end AfuBench
