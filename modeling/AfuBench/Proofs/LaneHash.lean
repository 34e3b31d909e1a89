import AfuBench.TestData.Checker
import AfuBench.Proofs.HashInjective

namespace AfuBench

structure DiffersAt {α : Type} (t : Nat) (xs ys : List α) : Prop where
  length_eq : xs.length = ys.length
  ne : xs[t]? ≠ ys[t]?
  same : ∀ i, i ≠ t → xs[i]? = ys[i]?

namespace DiffersAt

variable {α β : Type} {t : Nat} {xs ys : List α}

theorem lt_length (h : DiffersAt t xs ys) : t < xs.length := by
  by_contra hge
  have hx : xs[t]? = none := List.getElem?_eq_none (by omega)
  have hy : ys[t]? = none := List.getElem?_eq_none (by have := h.length_eq; omega)
  exact h.ne (hx.trans hy.symm)

theorem take_eq (h : DiffersAt t xs ys) {n : Nat} (hn : n ≤ t) : xs.take n = ys.take n := by
  apply List.ext_getElem?
  intro i
  rw [List.getElem?_take, List.getElem?_take]
  split
  · exact h.same i (by omega)
  · rfl

theorem drop_eq (h : DiffersAt t xs ys) {n : Nat} (hn : t < n) : xs.drop n = ys.drop n := by
  apply List.ext_getElem?
  intro i
  rw [List.getElem?_drop, List.getElem?_drop]
  exact h.same (n + i) (by omega)

theorem split (h : DiffersAt t xs ys) :
    ∃ before x y after, x ≠ y ∧ xs = before ++ x :: after ∧ ys = before ++ y :: after := by
  have hx := h.lt_length
  have hy : t < ys.length := by
    rw [← h.length_eq]
    exact hx
  refine ⟨xs.take t, xs[t], ys[t], xs.drop (t + 1), ?_, ?_, ?_⟩
  · intro he
    apply h.ne
    rw [List.getElem?_eq_getElem hx, List.getElem?_eq_getElem hy, he]
  · rw [← List.drop_eq_getElem_cons hx, List.take_append_drop]
  · rw [h.take_eq (Nat.le_refl t), h.drop_eq (Nat.lt_succ_self t), ← List.drop_eq_getElem_cons hy,
      List.take_append_drop]

theorem of_split (before after : List α) {x y : α} (hne : x ≠ y) :
    DiffersAt before.length (before ++ x :: after) (before ++ y :: after) where
  length_eq := by simp
  ne := by simpa using hne
  same i hi := by
    by_cases hlt : i < before.length
    · rw [List.getElem?_append_left hlt, List.getElem?_append_left hlt]
    · have hpos : ∃ k, i - before.length = k + 1 := ⟨i - before.length - 1, by omega⟩
      obtain ⟨k, hk⟩ := hpos
      rw [List.getElem?_append_right (by omega), List.getElem?_append_right (by omega), hk,
        List.getElem?_cons_succ, List.getElem?_cons_succ]

theorem take (h : DiffersAt t xs ys) {n : Nat} (hn : t < n) :
    DiffersAt t (xs.take n) (ys.take n) where
  length_eq := by rw [List.length_take, List.length_take, h.length_eq]
  ne := by
    rw [List.getElem?_take_of_lt hn, List.getElem?_take_of_lt hn]
    exact h.ne
  same i hi := by
    rw [List.getElem?_take, List.getElem?_take, h.same i hi]

theorem drop (h : DiffersAt t xs ys) {n : Nat} (hn : n ≤ t) :
    DiffersAt (t - n) (xs.drop n) (ys.drop n) where
  length_eq := by rw [List.length_drop, List.length_drop, h.length_eq]
  ne := by
    rw [List.getElem?_drop, List.getElem?_drop, Nat.add_sub_cancel' hn]
    exact h.ne
  same i hi := by
    rw [List.getElem?_drop, List.getElem?_drop, h.same (n + i) (by omega)]

theorem map_range {f g : Nat → β} {n : Nat} (ht : t < n) (hne : f t ≠ g t)
    (hsame : ∀ i, i < n → i ≠ t → f i = g i) :
    DiffersAt t ((List.range n).map f) ((List.range n).map g) where
  length_eq := by rw [List.length_map, List.length_map]
  ne := by
    rw [List.getElem?_map, List.getElem?_map, List.getElem?_range ht, Option.map_some,
      Option.map_some, ne_eq, Option.some.injEq]
    exact hne
  same i hi := by
    rw [List.getElem?_map, List.getElem?_map]
    by_cases hlt : i < n
    · rw [List.getElem?_range hlt, Option.map_some, Option.map_some, hsame i hlt hi]
    · rw [List.getElem?_eq_none (by rw [List.length_range]; omega), Option.map_none, Option.map_none]

end DiffersAt

namespace RollingHash

theorem fold_ne {h : UInt32} {t : Nat} {ds es : List UInt32} (hd : DiffersAt t ds es) :
    fold h ds ≠ fold h es := by
  obtain ⟨before, d, e, after, hne, rfl, rfl⟩ := hd.split
  exact fold_ne_of_one_word h before after hne

end RollingHash

theorem foldl_xor_injective (hs : List UInt32) :
    Function.Injective fun h => hs.foldl (· ^^^ ·) h := by
  induction hs with
  | nil =>
    intro a b hab
    exact hab
  | cons x hs ih =>
    intro a b hab
    exact (UInt32.xor_left_inj x).1 (ih hab)

theorem xorAll_ne {t : Nat} {hs ks : List UInt32} (hd : DiffersAt t hs ks) :
    xorAll hs ≠ xorAll ks := by
  obtain ⟨before, h, k, after, hne, rfl, rfl⟩ := hd.split
  intro he
  simp only [xorAll, List.foldl_append, List.foldl_cons] at he
  exact hne ((UInt32.xor_right_inj _).1 (foldl_xor_injective after he))

theorem reduce_ne {t : Nat} {hs ks : List UInt32} (hd : DiffersAt t hs ks) :
    reduce hs ≠ reduce ks := by
  intro he
  by_cases hhalf : t < hs.length / 2
  · have hlow := congrArg Word.lowLane he
    rw [reduce, reduce, Word.lowLane_ofLanes, Word.lowLane_ofLanes, ← hd.length_eq] at hlow
    exact xorAll_ne (hd.take hhalf) hlow
  · have hhigh := congrArg Word.highLane he
    rw [reduce, reduce, Word.highLane_ofLanes, Word.highLane_ofLanes, ← hd.length_eq] at hhigh
    exact xorAll_ne (hd.drop (by omega)) hhigh

def column (lane : Nat) (stream : List (List UInt64)) : List UInt32 :=
  stream.map fun v => (Word.lanes v).getD lane 0

theorem length_absorb {buckets : List UInt32} {v : List UInt64}
    (hlen : (Word.lanes v).length = buckets.length) : (absorb buckets v).length = buckets.length := by
  rw [absorb, List.length_zipWith, hlen, Nat.min_self]

theorem absorb_eq_mapIdx {buckets : List UInt32} {v : List UInt64}
    (hlen : (Word.lanes v).length = buckets.length) :
    absorb buckets v =
      buckets.mapIdx fun i h => RollingHash.step h ((Word.lanes v).getD i 0) := by
  apply List.ext_getElem
  · simp [absorb, hlen]
  · intro i hi _
    have hiv : i < (Word.lanes v).length := by
      simp only [absorb, List.length_zipWith] at hi
      omega
    simp [absorb, List.getElem?_eq_getElem hiv]

theorem foldl_absorb (stream : List (List UInt64)) (buckets : List UInt32)
    (hlen : ∀ v ∈ stream, (Word.lanes v).length = buckets.length) :
    stream.foldl absorb buckets =
      buckets.mapIdx fun i h => RollingHash.fold h (column i stream) := by
  induction stream generalizing buckets with
  | nil =>
    apply List.ext_getElem?
    intro i
    simp [column, RollingHash.fold_nil]
  | cons v stream ih =>
    have hv := hlen v List.mem_cons_self
    rw [List.foldl_cons, absorb_eq_mapIdx hv, ih, List.mapIdx_mapIdx]
    · rfl
    · intro w hw
      rw [List.length_mapIdx]
      exact hlen w (List.mem_cons_of_mem v hw)

def laneHash (stream : List (List UInt64)) (lane : Nat) : UInt32 :=
  RollingHash.fold RollingHash.initial (column lane stream)

theorem streamHash_eq {words : Nat} {stream : List (List UInt64)}
    (hlen : ∀ v ∈ stream, v.length = words) :
    streamHash words stream = reduce ((List.range (2 * words)).map (laneHash stream)) := by
  have hfresh : (freshBuckets (2 * words)).length = 2 * words := List.length_replicate
  rw [streamHash, foldl_absorb]
  · congr 1
    apply List.ext_getElem
    · simp [hfresh]
    · intro i _ _
      simp [freshBuckets, laneHash]
  · intro v hv
    rw [Word.length_lanes, hlen v hv, hfresh]

theorem streamHash_eq_iff_of_lane {words lane : Nat} {stream other : List (List UInt64)}
    (hlen : ∀ v ∈ stream, v.length = words) (hlen' : ∀ v ∈ other, v.length = words)
    (hlane : lane < 2 * words)
    (hsame : ∀ i, i < 2 * words → i ≠ lane → column i stream = column i other) :
    streamHash words stream = streamHash words other ↔ laneHash stream lane = laneHash other lane := by
  have hothers (i : Nat) (hi : i < 2 * words) (hne : i ≠ lane) :
      laneHash stream i = laneHash other i := by
    rw [laneHash, laneHash, hsame i hi hne]
  rw [streamHash_eq hlen, streamHash_eq hlen']
  constructor
  · intro heq
    by_contra hne
    exact reduce_ne (.map_range hlane hne hothers) heq
  · intro hhash
    congr 1
    apply List.map_congr_left
    intro i hi
    by_cases hne : i = lane
    · rw [hne, hhash]
    · exact hothers i (List.mem_range.1 hi) hne

theorem Word.lanes_append (vs ws : List UInt64) :
    Word.lanes (vs ++ ws) = Word.lanes vs ++ Word.lanes ws :=
  List.flatMap_append

theorem getElem?_lanes_flatten {words : Nat} {stream : List (List UInt64)}
    (hlen : ∀ v ∈ stream, v.length = words) {lane : Nat} (hlane : lane < 2 * words) (t : Nat) :
    (Word.lanes stream.flatten)[2 * words * t + lane]? = (column lane stream)[t]? := by
  induction stream generalizing t with
  | nil => simp [column, Word.lanes_nil]
  | cons v stream ih =>
    have hv : (Word.lanes v).length = 2 * words := by
      rw [Word.length_lanes, hlen v List.mem_cons_self]
    rw [List.flatten_cons, Word.lanes_append]
    cases t with
    | zero =>
      rw [List.getElem?_append_left (by omega)]
      simp [column, hv, hlane]
    | succ t =>
      rw [Nat.mul_succ, List.getElem?_append_right (by omega), hv,
        show 2 * words * t + 2 * words + lane - 2 * words = 2 * words * t + lane by omega,
        ih (fun w hw => hlen w (List.mem_cons_of_mem v hw)) t]
      rfl

theorem column_differsAt {words j : Nat} {stream other : List (List UInt64)}
    (hlen : ∀ v ∈ stream, v.length = words) (hlen' : ∀ v ∈ other, v.length = words)
    (hcount : stream.length = other.length) (hwords : 0 < words)
    (hd : DiffersAt j (Word.lanes stream.flatten) (Word.lanes other.flatten)) :
    DiffersAt (j / (2 * words)) (column (j % (2 * words)) stream)
      (column (j % (2 * words)) other) := by
  have hlane : j % (2 * words) < 2 * words := Nat.mod_lt j (by omega)
  have hj : 2 * words * (j / (2 * words)) + j % (2 * words) = j := Nat.div_add_mod j (2 * words)
  refine ⟨?_, ?_, ?_⟩
  · simp [column, hcount]
  · rw [← getElem?_lanes_flatten hlen hlane, ← getElem?_lanes_flatten hlen' hlane, hj]
    exact hd.ne
  · intro t ht
    rw [← getElem?_lanes_flatten hlen hlane, ← getElem?_lanes_flatten hlen' hlane]
    apply hd.same
    intro he
    apply ht
    rw [← he, Nat.mul_add_div (by omega), Nat.div_eq_of_lt hlane, Nat.add_zero]

theorem column_eq {words j lane : Nat} {stream other : List (List UInt64)}
    (hlen : ∀ v ∈ stream, v.length = words) (hlen' : ∀ v ∈ other, v.length = words)
    (hd : DiffersAt j (Word.lanes stream.flatten) (Word.lanes other.flatten))
    (hlane : lane < 2 * words) (hne : lane ≠ j % (2 * words)) :
    column lane stream = column lane other := by
  apply List.ext_getElem?
  intro t
  rw [← getElem?_lanes_flatten hlen hlane, ← getElem?_lanes_flatten hlen' hlane]
  apply hd.same
  intro he
  apply hne
  rw [← he, Nat.mul_add_mod, Nat.mod_eq_of_lt hlane]

theorem streamHash_ne {words j : Nat} {stream other : List (List UInt64)}
    (hlen : ∀ v ∈ stream, v.length = words) (hlen' : ∀ v ∈ other, v.length = words)
    (hcount : stream.length = other.length) (hwords : 0 < words)
    (hd : DiffersAt j (Word.lanes stream.flatten) (Word.lanes other.flatten)) :
    streamHash words stream ≠ streamHash words other := by
  have hlane : j % (2 * words) < 2 * words := Nat.mod_lt j (by omega)
  rw [ne_eq, streamHash_eq_iff_of_lane hlen hlen' hlane fun i => column_eq hlen hlen' hd]
  exact RollingHash.fold_ne (column_differsAt hlen hlen' hcount hwords hd)

end AfuBench
