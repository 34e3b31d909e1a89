import AfuBench.Proofs.GeneratorPeriod
import AfuBench.Proofs.HashLinear
import AfuBench.Proofs.WordLanes
/-!
How the reduced hash of a generated sequence depends on the seed. Where a vector has an even number
of words, both lanes of a word come into the same half of the hash, so only the exclusive or of the
two halves of the seed is left in it.
-/

namespace AfuBench

namespace Word

def folded (w : UInt64) : UInt32 :=
  lowLane w ^^^ highLane w

theorem folded_xor (v w : UInt64) : folded (v ^^^ w) = folded v ^^^ folded w := by
  rw [folded, lowLane_xor, highLane_xor, folded, folded]
  ac_rfl

theorem folded_ofLanes_zero (e : UInt32) : folded (ofLanes e 0) = e := by
  rw [folded, lowLane_ofLanes, highLane_ofLanes, UInt32.xor_zero]

theorem getLsbD_folded (w : UInt64) {i : Nat} (hi : i < 32) :
    (folded w).toBitVec.getLsbD i = (bit w i ^^ bit w (32 + i)) := by
  rw [folded, UInt32.toBitVec_xor, BitVec.getLsbD_xor, getLsbD_lowLane w hi, getLsbD_highLane w hi,
    bit, bit]

theorem getLsbD_folded_rotateLeft (w : UInt64) (n : Nat) {i : Nat} (hi : i < 32) :
    (folded (rotateLeft w n)).toBitVec.getLsbD i =
      (folded w).toBitVec.getLsbD ((i + 64 - n % 64) % 32) := by
  rw [getLsbD_folded _ hi, getLsbD_folded w (Nat.mod_lt _ (by decide)), bit_rotateLeft w n (by omega),
    bit_rotateLeft w n (by omega)]
  -- the two bits are half a word apart before and after the turn, in one order or the other
  by_cases hlow : (i + 64 - n % 64) % 64 < 32
  · have hfirst : (i + 64 - n % 64) % 64 = (i + 64 - n % 64) % 32 := by omega
    have hsecond : (32 + i + 64 - n % 64) % 64 = 32 + (i + 64 - n % 64) % 32 := by omega
    rw [hfirst, hsecond]
  · have hfirst : (i + 64 - n % 64) % 64 = 32 + (i + 64 - n % 64) % 32 := by omega
    have hsecond : (32 + i + 64 - n % 64) % 64 = (i + 64 - n % 64) % 32 := by omega
    rw [hfirst, hsecond, Bool.xor_comm]

theorem folded_rotateLeft_congr {v w : UInt64} (h : folded v = folded w) (n : Nat) :
    folded (rotateLeft v n) = folded (rotateLeft w n) := by
  apply UInt32.toBitVec_inj.1
  apply BitVec.eq_of_getLsbD_eq
  intro i hi
  rw [getLsbD_folded_rotateLeft v n hi, getLsbD_folded_rotateLeft w n hi, h]

end Word

theorem seedSum_xor (s t : UInt64) (i count : Nat) :
    seedSum (s ^^^ t) i count = seedSum s i count ^^^ seedSum t i count := by
  induction count with
  | zero => exact UInt64.xor_self.symm
  | succ count ih =>
    rw [seedSum_succ, seedSum_succ, seedSum_succ, ih, Word.rotateLeft_xor]
    ac_rfl

theorem folded_seedSum_congr {s t : UInt64} (h : Word.folded s = Word.folded t) (i count : Nat) :
    Word.folded (seedSum s i count) = Word.folded (seedSum t i count) := by
  induction count with
  | zero => rfl
  | succ count ih =>
    rw [seedSum_succ, seedSum_succ, Word.folded_xor, Word.folded_xor, ih,
      Word.folded_rotateLeft_congr h]

theorem xorAll_map_xor {α : Type} (f g : α → UInt32) (xs : List α) :
    xorAll (xs.map fun x => f x ^^^ g x) = xorAll (xs.map f) ^^^ xorAll (xs.map g) := by
  induction xs with
  | nil => exact UInt32.xor_self.symm
  | cons x xs ih =>
    rw [List.map_cons, xorAll_cons, ih, List.map_cons, xorAll_cons, List.map_cons, xorAll_cons]
    ac_rfl

theorem lane_even (v : List UInt64) (i : Nat) : lane v (2 * i) = Word.lowLane (v.getD i 0) := by
  rw [lane, if_pos (Nat.mul_mod_right 2 i), Nat.mul_div_cancel_left i (by decide)]

theorem lane_odd (v : List UInt64) (i : Nat) : lane v (2 * i + 1) = Word.highLane (v.getD i 0) := by
  have hodd : ¬ (2 * i + 1) % 2 = 0 := by omega
  have hhalf : (2 * i + 1) / 2 = i := by omega
  rw [lane, if_neg hodd, hhalf]

theorem laneSum_words (v : List UInt64) (start count : Nat) :
    laneSum (2 * start) (2 * count) v =
      xorAll ((List.range' start count).map fun i => Word.folded (v.getD i 0)) := by
  induction count generalizing start with
  | zero => rfl
  | succ count ih =>
    have hpairs : List.range' (2 * start) (2 * (count + 1)) =
        2 * start :: (2 * start + 1) :: List.range' (2 * (start + 1)) (2 * count) := rfl
    rw [laneSum, hpairs, List.map_cons, List.map_cons, xorAll_cons, xorAll_cons, lane_even, lane_odd,
      ← UInt32.xor_assoc, ← Word.folded, List.range'_succ, List.map_cons, xorAll_cons, ← ih]
    rfl

def seedShare (start count n : Nat) (seed : UInt64) : UInt32 :=
  xorAll ((List.range' start count).map fun i => Word.folded (seedSum seed i (n + 1)))

theorem seedShare_xor (start count n : Nat) (s t : UInt64) :
    seedShare start count n (s ^^^ t) = seedShare start count n s ^^^ seedShare start count n t := by
  simp only [seedShare, seedSum_xor, Word.folded_xor, xorAll_map_xor]

theorem seedShare_congr (start count n : Nat) {s t : UInt64} (h : Word.folded s = Word.folded t) :
    seedShare start count n s = seedShare start count n t := by
  simp only [seedShare, folded_seedSum_congr h]

theorem getD_generated (seed : UInt64) {words i : Nat} (hi : i < words) (n : Nat) :
    (generated seed words n).getD i 0 =
      (generated 0 words n).getD i 0 ^^^ seedSum seed i (n + 1) := by
  have hzero : seedSum 0 i (n + 1) = 0 := by
    have hsum := seedSum_xor 0 0 i (n + 1)
    rw [UInt64.xor_self, UInt64.xor_self] at hsum
    exact hsum
  rw [List.getD_eq_getElem?_getD, List.getD_eq_getElem?_getD, getElem?_generated seed hi,
    getElem?_generated 0 hi, hzero, Option.getD_some, Option.getD_some, UInt64.xor_zero]

theorem laneSum_generated (seed : UInt64) {words start count : Nat} (h : start + count ≤ words)
    (n : Nat) :
    laneSum (2 * start) (2 * count) (generated seed words n) =
      laneSum (2 * start) (2 * count) (generated 0 words n) ^^^ seedShare start count n seed := by
  rw [laneSum_words, laneSum_words, seedShare, ← xorAll_map_xor]
  congr 1
  apply List.map_congr_left
  intro i hi
  obtain ⟨_, hlt⟩ := List.mem_range'_1.1 hi
  rw [getD_generated seed (by omega), Word.folded_xor]

def seedHash (start count vectors : Nat) (seed : UInt64) : UInt32 :=
  RollingHash.fold 0 ((List.range vectors).map fun n => seedShare start count n seed)

theorem seedHash_xor (start count vectors : Nat) (s t : UInt64) :
    seedHash start count vectors (s ^^^ t) =
      seedHash start count vectors s ^^^ seedHash start count vectors t := by
  have hsum := RollingHash.fold_map_xor (seedShare start count · s) (seedShare start count · t) 0 0
    (List.range vectors)
  rw [UInt32.xor_self] at hsum
  simp only [seedHash, seedShare_xor, hsum]

theorem seedHash_congr (start count vectors : Nat) {s t : UInt64}
    (h : Word.folded s = Word.folded t) :
    seedHash start count vectors s = seedHash start count vectors t := by
  simp only [seedHash, seedShare_congr start count _ h]

theorem halfHash_vectors (seed : UInt64) {half start : Nat} (h : start ≤ half) (count : Nat) :
    halfHash (2 * half) (2 * start) (vectors seed (2 * half) count) =
      halfHash (2 * half) (2 * start) (vectors 0 (2 * half) count) ^^^
        seedHash start half count seed := by
  have hsums (s : UInt64) : (vectors s (2 * half) count).map (laneSum (2 * start) (2 * half)) =
      (List.range count).map fun n => laneSum (2 * start) (2 * half) (generated s (2 * half) n) := by
    rw [vectors_eq_map, List.map_map]
    rfl
  have hsplit (n : Nat) := laneSum_generated seed (show start + half ≤ 2 * half by omega) n
  have hfold := RollingHash.fold_map_xor
    (fun n => laneSum (2 * start) (2 * half) (generated 0 (2 * half) n))
    (seedShare start half · seed) (halfInitial (2 * half)) 0 (List.range count)
  rw [UInt32.xor_zero] at hfold
  rw [halfHash, halfHash, hsums, hsums, seedHash]
  simp only [hsplit, hfold]

def seedEffect (half count : Nat) (e : UInt32) : UInt64 :=
  Word.ofLanes (seedHash 0 half count (Word.ofLanes e 0))
    (seedHash half half count (Word.ofLanes e 0))

theorem seedEffect_xor (half count : Nat) (d e : UInt32) :
    seedEffect half count (d ^^^ e) = seedEffect half count d ^^^ seedEffect half count e := by
  have hsplit : Word.ofLanes (d ^^^ e) 0 = Word.ofLanes d 0 ^^^ Word.ofLanes e 0 := by
    rw [← Word.ofLanes_xor, UInt32.xor_self]
  rw [seedEffect, hsplit, seedHash_xor, seedHash_xor, Word.ofLanes_xor, seedEffect, seedEffect]

theorem streamHash_vectors (half : Nat) (seed : UInt64) (count : Nat) :
    streamHash (2 * half) (vectors seed (2 * half) count) =
      streamHash (2 * half) (vectors 0 (2 * half) count) ^^^
        seedEffect half count (Word.folded seed) := by
  have hlow := halfHash_vectors seed (Nat.zero_le half) count
  have hhigh := halfHash_vectors seed (Nat.le_refl half) count
  have hspread (start : Nat) : seedHash start half count (Word.ofLanes (Word.folded seed) 0) =
      seedHash start half count seed :=
    seedHash_congr start half count (Word.folded_ofLanes_zero _)
  rw [Nat.mul_zero] at hlow
  rw [streamHash_eq_ofLanes fun v => length_of_mem_vectors,
    streamHash_eq_ofLanes fun v => length_of_mem_vectors, hlow, hhigh, Word.ofLanes_xor, seedEffect,
    hspread, hspread]

theorem getElem?_initialVector_ne {s t : UInt64} (hne : s ≠ t) {words i : Nat} (hi : i < words) :
    (initialVector s words)[i]? ≠ (initialVector t words)[i]? := by
  rw [getElem?_initialVector s hi, getElem?_initialVector t hi, ne_eq, Option.some.injEq,
    UInt64.xor_right_inj]
  exact fun hturned => hne (Word.rotateLeft_injective i hturned)

/-- For vectors of an even number of words a part of the reduced hash does not depend on the seed, and
the other part is linear in the exclusive or of the two halves of the seed. So seeds with the same
exclusive or share the hash of every number of vectors, while their first vectors differ in each
word. -/
theorem expectedHash_seed {half : Nat} (hhalf : 0 < half) (count : Nat) :
    ∃ (base : UInt64) (effect : UInt32 → UInt64),
      expectedHash (16 * half) 0 count = .ok base ∧
      (∀ d e, effect (d ^^^ e) = effect d ^^^ effect e) ∧
      (∀ seed, expectedHash (16 * half) seed count =
        .ok (base ^^^ effect (Word.lowLane seed ^^^ Word.highLane seed))) ∧
      ∀ s t, Word.lowLane s ^^^ Word.highLane s = Word.lowLane t ^^^ Word.highLane t →
        expectedHash (16 * half) s count = expectedHash (16 * half) t count ∧
        (s ≠ t → 0 < count → ∃ v w, (vectors s (2 * half) count)[0]? = some v ∧
          (vectors t (2 * half) count)[0]? = some w ∧ ∀ i, i < 2 * half → v[i]? ≠ w[i]?) := by
  have hwords : wordCount (16 * half) = .ok (2 * half) :=
    wordCount_eq_ok_iff.2 ⟨by omega, by omega⟩
  have hhash (seed : UInt64) := (expectedHash_of_wordCount hwords seed count).trans
    (congrArg _ (streamHash_vectors half seed count))
  refine ⟨_, seedEffect half count, expectedHash_of_wordCount hwords 0 count,
    seedEffect_xor half count, hhash, ?_⟩
  intro s t hst
  refine ⟨?_, ?_⟩
  · have hfolded : Word.folded s = Word.folded t := hst
    rw [hhash s, hhash t, hfolded]
  · intro hne hcount
    exact ⟨_, _, getElem?_vectors s (2 * half) hcount, getElem?_vectors t (2 * half) hcount,
      fun i hi => getElem?_initialVector_ne hne hi⟩

theorem expectedHash_seed_swapped_halves :
    0 < 1 ∧ expectedHash 16 0x0000000700000005 3 = expectedHash 16 0x0000000500000007 3 ∧
      ∃ v w, (vectors 0x0000000700000005 2 3)[0]? = some v ∧
        (vectors 0x0000000500000007 2 3)[0]? = some w ∧ v[0]? ≠ w[0]? ∧ v[1]? ≠ w[1]? := by
  have hhalf : 0 < 1 := by decide
  obtain ⟨_, _, _, _, _, hfolded⟩ := expectedHash_seed hhalf 3
  obtain ⟨hhash, hvectors⟩ := hfolded 0x0000000700000005 0x0000000500000007 (by decide)
  obtain ⟨v, w, hv, hw, hwords⟩ := hvectors (by decide) (by decide)
  exact ⟨hhalf, hhash, v, w, hv, hw, hwords 0 (by decide), hwords 1 (by decide)⟩

end AfuBench
