import AfuBench.Proofs.VectorSequence
import AfuBench.Proofs.WordBits
/-!
The generated words in closed form. Every vector turns the words by one byte and takes the seed in
again, so a word holds its pattern, turned, and the seed once for each vector, turned by a byte from
one to the next. After 16 vectors every turn of the seed has come in twice and nothing is left of it.
-/

namespace AfuBench

def seedPass (f : UInt64 → UInt64 → UInt64) : UInt64 → List UInt64 → List UInt64
  | _, [] => []
  | seed, w :: ws => f w seed :: seedPass f (Word.rotateLeft seed 1) ws

theorem seedPass_eq_mapIdx (f : UInt64 → UInt64 → UInt64) (seed : UInt64) (ws : List UInt64) :
    seedPass f seed ws = ws.mapIdx fun i w => f w (Word.rotateLeft seed i) := by
  induction ws generalizing seed with
  | nil => rfl
  | cons w ws ih =>
    rw [seedPass, ih, List.mapIdx_cons, Word.rotateLeft_zero]
    simp only [Word.rotateLeft_rotateLeft, Nat.add_comm]

def tiledPattern (words : Nat) : List UInt64 :=
  (List.range words).map fun i => Generator.pattern.toList.getD (i % 8) 0

theorem getD_pattern (i : Nat) :
    Generator.pattern.toList.getD (i % 8) 0 = Generator.pattern.get (Fin.ofNat 8 i) := by
  have hi : i % 8 < Generator.pattern.toList.length := Nat.mod_lt i (by decide)
  rw [List.getD_eq_getElem?_getD, List.getElem?_eq_getElem hi]
  rfl

theorem initialVector_eq_seedPass (seed : UInt64) (words : Nat) :
    initialVector seed words = seedPass (· ^^^ ·) seed (tiledPattern words) := by
  rw [seedPass_eq_mapIdx]
  apply List.ext_getElem
  · simp [initialVector, tiledPattern]
  · intro i hi _
    simp only [initialVector, tiledPattern, List.getElem_map, List.getElem_mapIdx,
      List.getElem_range, getD_pattern]

theorem nextVector_eq_seedPass (seed : UInt64) (data : List UInt64) :
    nextVector seed data = seedPass (fun w s => Word.rotateLeft w 8 ^^^ s) seed data :=
  (seedPass_eq_mapIdx _ seed data).symm

def seedSum (seed : UInt64) (i count : Nat) : UInt64 :=
  ((List.range count).map fun k => Word.rotateLeft seed (i + 8 * k)).foldl (· ^^^ ·) 0

theorem seedSum_zero (seed : UInt64) (i : Nat) : seedSum seed i 0 = 0 := rfl

theorem seedSum_succ (seed : UInt64) (i count : Nat) :
    seedSum seed i (count + 1) = seedSum seed i count ^^^ Word.rotateLeft seed (i + 8 * count) := by
  simp only [seedSum, List.range_succ, List.map_append, List.map_cons, List.map_nil,
    List.foldl_append, List.foldl_cons, List.foldl_nil]

theorem seedSum_add (seed : UInt64) (i m n : Nat) :
    seedSum seed i (m + n) = seedSum seed i m ^^^ seedSum seed (i + 8 * m) n := by
  induction n with
  | zero => rw [seedSum_zero, Nat.add_zero, UInt64.xor_zero]
  | succ n ih =>
    have hturn : i + 8 * (m + n) = i + 8 * m + 8 * n := by omega
    rw [← Nat.add_assoc, seedSum_succ, ih, seedSum_succ, hturn, UInt64.xor_assoc]

theorem seedSum_full_turn (seed : UInt64) (i count : Nat) :
    seedSum seed (i + 64) count = seedSum seed i count := by
  induction count with
  | zero => rfl
  | succ count ih =>
    have hturn : (i + 64 + 8 * count) % 64 = (i + 8 * count) % 64 := by omega
    rw [seedSum_succ, seedSum_succ, ih, Word.rotateLeft_of_mod_eq seed hturn]

theorem seedSum_sixteen (seed : UInt64) (i : Nat) : seedSum seed i 16 = 0 := by
  have hhalves := seedSum_add seed i 8 8
  rw [seedSum_full_turn, UInt64.xor_self] at hhalves
  exact hhalves

theorem rotateLeft_seedSum (seed : UInt64) (i count : Nat) :
    Word.rotateLeft (seedSum seed i count) 8 ^^^ Word.rotateLeft seed i =
      seedSum seed i (count + 1) := by
  induction count with
  | zero =>
    have hstart : Word.rotateLeft 0 8 = 0 := by decide
    rw [seedSum_zero, hstart, seedSum_succ, seedSum_zero, Nat.mul_zero, Nat.add_zero]
  | succ count ih =>
    -- the byte turn moves every term to the place of the next one
    have hturn : i + 8 * count + 8 = i + 8 * (count + 1) := by omega
    rw [seedSum_succ, Word.rotateLeft_xor, Word.rotateLeft_rotateLeft, hturn, UInt64.xor_assoc,
      UInt64.xor_comm (Word.rotateLeft seed (i + 8 * (count + 1))), ← UInt64.xor_assoc, ih,
      ← seedSum_succ]

theorem getElem?_initialVector (seed : UInt64) {words i : Nat} (hi : i < words) :
    (initialVector seed words)[i]? =
      some (Generator.pattern.get (Fin.ofNat 8 i) ^^^ Word.rotateLeft seed i) := by
  rw [initialVector, List.getElem?_map, List.getElem?_range hi, Option.map_some]

theorem getElem?_iterate_nextVector (seed : UInt64) (data : List UInt64) (n i : Nat) :
    ((nextVector seed)^[n] data)[i]? =
      data[i]?.map fun w => Word.rotateLeft w (8 * n) ^^^ seedSum seed i n := by
  induction n with
  | zero =>
    have hstill : (fun w => Word.rotateLeft w (8 * 0) ^^^ seedSum seed i 0) = id := by
      funext w
      rw [seedSum_zero, UInt64.xor_zero, Nat.mul_zero, Word.rotateLeft_zero, id]
    rw [hstill, Option.map_id, Function.iterate_zero, id, id]
  | succ n ih =>
    have hword (w : UInt64) :
        Word.rotateLeft (Word.rotateLeft w (8 * n) ^^^ seedSum seed i n) 8 ^^^
            Word.rotateLeft seed i =
          Word.rotateLeft w (8 * (n + 1)) ^^^ seedSum seed i (n + 1) := by
      rw [Word.rotateLeft_xor, Word.rotateLeft_rotateLeft, UInt64.xor_assoc, rotateLeft_seedSum,
        Nat.mul_succ]
    rw [Function.iterate_succ_apply', nextVector, List.getElem?_mapIdx, ih, Option.map_map]
    exact congrArg (fun f => data[i]?.map f) (funext hword)

theorem getElem?_generated (seed : UInt64) {words i : Nat} (hi : i < words) (n : Nat) :
    (generated seed words n)[i]? =
      some (Word.rotateLeft (Generator.pattern.get (Fin.ofNat 8 i)) (8 * n) ^^^
        seedSum seed i (n + 1)) := by
  rw [generated, getElem?_iterate_nextVector, getElem?_initialVector seed hi, Option.map_some,
    Word.rotateLeft_xor, Word.rotateLeft_rotateLeft, UInt64.xor_assoc, seedSum_succ,
    UInt64.xor_comm (Word.rotateLeft seed (i + 8 * n))]

theorem iterate_nextVector_sixteen (seed : UInt64) (data : List UInt64) :
    (nextVector seed)^[16] data = data := by
  apply List.ext_getElem?
  intro i
  have hstill : (fun w => Word.rotateLeft w (8 * 16) ^^^ seedSum seed i 16) = id := by
    funext w
    have hfull : (8 * 16) % 64 = 0 % 64 := by decide
    rw [seedSum_sixteen, UInt64.xor_zero, Word.rotateLeft_of_mod_eq w hfull, Word.rotateLeft_zero, id]
  rw [getElem?_iterate_nextVector, hstill, Option.map_id, id]

def advanceTimes (seed : UInt64) : Nat → List UInt64 → Except DataError (List UInt64)
  | 0, data => .ok data
  | n + 1, data => advanceVector seed data >>= advanceTimes seed n

theorem wordCount_length {α : Type} {data : List α} (h : data ≠ []) :
    wordCount (8 * data.length) = .ok data.length :=
  wordCount_eight_mul (List.length_pos_iff.2 h)

theorem advanceTimes_eq (seed : UInt64) (n : Nat) {data : List UInt64} (h : data ≠ []) :
    advanceTimes seed n data = .ok ((nextVector seed)^[n] data) := by
  induction n generalizing data with
  | zero => rfl
  | succ n ih =>
    have hnext : nextVector seed data ≠ [] := by
      rw [← List.length_pos_iff, length_nextVector]
      exact List.length_pos_iff.2 h
    rw [advanceTimes, advanceVector, wordCount_length h, Function.iterate_succ_apply, ← ih hnext]
    rfl

namespace Generator

theorem iterate_advance (g : Generator) (n : Nat) :
    advance^[n] g = { g with data := (nextVector g.seed)^[n] g.data } := by
  induction n generalizing g with
  | zero => rfl
  | succ n ih => rw [Function.iterate_succ_apply, ih, Function.iterate_succ_apply]; rfl

theorem new_eq {words : Nat} (hwords : 0 < words) (seed : UInt64) :
    new (8 * words) seed = .ok ⟨seed, initialVector seed words⟩ := by
  rw [new, wordCount_eight_mul hwords]
  rfl

/-- A new generator starts with the pattern, and every advance is a pass over its words. Word `i` of
the vector after `n` advances is its pattern turned by `n` bytes, with the seed turned by `i` bits and
by 0 to `n` bytes more. After 16 advances every generator and every buffer is what it was. -/
theorem advance_closedForm {words : Nat} (hwords : 0 < words) (seed : UInt64) :
    ∃ g, new (8 * words) seed = .ok g ∧
      g.data = seedPass (· ^^^ ·) seed (tiledPattern words) ∧
      (∀ h : Generator,
        h.advance.data = seedPass (fun w s => Word.rotateLeft w 8 ^^^ s) h.seed h.data) ∧
      (∀ n, (advance^[n] g).data.length = words ∧
        ∀ i, i < words → (advance^[n] g).data[i]? =
          some (Word.rotateLeft (pattern.get (Fin.ofNat 8 i)) (8 * n) ^^^ seedSum seed i (n + 1))) ∧
      (∀ contents : List UInt64, contents.length = words → restart ⟨seed, contents⟩ = g ∧
        ∀ n, (resetVector seed contents >>= advanceTimes seed n) = .ok (advance^[n] g).data) ∧
      (∀ n, advance^[n + 16] g = advance^[n] g) ∧
      ∀ h : Generator, advance^[16] h = h ∧
        (h.data ≠ [] → advanceTimes h.seed 16 h.data = .ok h.data) := by
  have hperiod (h : Generator) : advance^[16] h = h := by
    rw [iterate_advance, iterate_nextVector_sixteen]
  refine ⟨⟨seed, initialVector seed words⟩, new_eq hwords seed,
    initialVector_eq_seedPass seed words, fun h => nextVector_eq_seedPass h.seed h.data, ?_, ?_, ?_,
    ?_⟩
  · intro n
    rw [iterate_advance]
    exact ⟨length_generated seed words n, fun i hi => getElem?_generated seed hi n⟩
  · rintro contents rfl
    refine ⟨rfl, fun n => ?_⟩
    have hfull : initialVector seed contents.length ≠ [] := by
      rw [← List.length_pos_iff, length_initialVector]
      exact hwords
    rw [iterate_advance, ← advanceTimes_eq seed n hfull, resetVector, wordCount_eight_mul hwords]
    rfl
  · intro n
    rw [Function.iterate_add_apply, hperiod]
  · intro h
    refine ⟨hperiod h, fun hdata => ?_⟩
    rw [advanceTimes_eq h.seed 16 hdata, iterate_nextVector_sixteen]

/-- The ninth word begins the pattern again, with the seed turned by eight bits. -/
theorem advance_closedForm_nine_words :
    0 < 9 ∧ ∃ g, new 72 5 = .ok g ∧
      g.data[8]? = some 0x860761722b164f00 ∧
      (advance^[2] g).data[8]? =
        some (Word.rotateLeft 0x860761722b164a00 16 ^^^ (0x500 ^^^ 0x50000 ^^^ 0x5000000)) ∧
      (advance^[3 + 16] g).data = (advance^[3] g).data ∧
      advanceTimes 7 16 [1, 2, 3] = .ok [1, 2, 3] := by
  have hnine : 0 < 9 := by decide
  obtain ⟨g, hnew, _, _, hword, _, hrepeat, hperiod⟩ := advance_closedForm hnine 5
  refine ⟨hnine, g, hnew, ?_, ?_, ?_, ?_⟩
  · exact (hword 0).2 8 (by decide)
  · exact (hword 2).2 8 (by decide)
  · rw [hrepeat 3]
  · exact (hperiod ⟨7, [1, 2, 3]⟩).2 (by decide)

end Generator

end AfuBench
