import AfuBench.RollingHash
import Mathlib.Logic.Function.Basic

namespace AfuBench.RollingHash

theorem and_one_eq_one_iff (h : UInt32) : h &&& 1 = 1 ↔ h.toBitVec.getLsbD 0 = true := by
  constructor
  · intro hone
    have hbit : (h &&& 1).toBitVec.getLsbD 0 = true := by
      rw [hone]
      decide
    simpa using hbit
  · intro hlow
    apply UInt32.toBitVec_inj.1
    apply BitVec.eq_of_getLsbD_eq
    intro i _
    cases i with
    | zero => simpa using hlow
    | succ i => simp [BitVec.getLsbD_one]

theorem getLsbD_turn (h : UInt32) {i : Nat} (hi : i < 32) :
    (h >>> 1 ||| h <<< 31).toBitVec.getLsbD i = h.toBitVec.getLsbD ((i + 1) % 32) := by
  have h1 : ((1 : UInt32).toBitVec % 32).toNat = 1 := by decide
  have h31 : ((31 : UInt32).toBitVec % 32).toNat = 31 := by decide
  simp only [UInt32.toBitVec_or, UInt32.toBitVec_shiftLeft, UInt32.toBitVec_shiftRight,
    BitVec.getLsbD_or, BitVec.shiftLeft_eq', BitVec.ushiftRight_eq', h1, h31,
    BitVec.getLsbD_ushiftRight, BitVec.getLsbD_shiftLeft]
  by_cases hlast : i = 31
  · subst hlast
    simp
  · have hlow : (i + 1) % 32 = 1 + i := by omega
    have hlt : i < 31 := by omega
    simp [hlow, hlt]

theorem getLsbD_taps {i : Nat} (hi : i < 32) :
    taps.toBitVec.getLsbD i = decide (i ∈ [0, 1, 2, 4, 6]) := by
  have hall : ∀ i < 32, taps.toBitVec.getLsbD i = decide (i ∈ [0, 1, 2, 4, 6]) := by decide
  exact hall i hi

theorem getLsbD_step (h d : UInt32) {i : Nat} (hi : i < 32) :
    (step h d).toBitVec.getLsbD i =
      (h.toBitVec.getLsbD ((i + 1) % 32) ^^
        (decide (i ∈ [0, 1, 2, 4, 6]) && h.toBitVec.getLsbD 0) ^^ d.toBitVec.getLsbD i) := by
  have htaps : (if h &&& 1 = 1 then taps else 0).toBitVec.getLsbD i =
      (decide (i ∈ [0, 1, 2, 4, 6]) && h.toBitVec.getLsbD 0) := by
    by_cases hlow : h.toBitVec.getLsbD 0 = true
    · rw [if_pos ((and_one_eq_one_iff h).2 hlow), hlow, Bool.and_true, getLsbD_taps hi]
    · rw [if_neg (fun e => hlow ((and_one_eq_one_iff h).1 e)), Bool.eq_false_iff.2 hlow,
        Bool.and_false]
      simp
  rw [step, UInt32.toBitVec_xor, UInt32.toBitVec_xor, BitVec.getLsbD_xor, BitVec.getLsbD_xor,
    getLsbD_turn h hi, htaps]

theorem get_cells (w : UInt32) (i : Fin 32) : (cells w).get i = w.toBitVec.getLsbD i := by
  change (cells w)[i.val] = w.toBitVec.getLsbD i
  rw [cells, Vector.getElem_ofFn]

theorem cells_step (h d : UInt32) : cells (step h d) = beat (cells h) (cells d) := by
  have htap : ∀ i : Fin 32, i ∈ [0, 1, 2, 4, 6] ↔ i.val ∈ [0, 1, 2, 4, 6] := by decide
  ext i hi
  rw [cells, beat, Vector.getElem_ofFn, Vector.getElem_ofFn, getLsbD_step h d hi]
  simp only [get_cells, htap]
  by_cases hlast : i = 31
  · subst hlast
    simp [Bool.xor_comm]
  · have hnext : (i + 1) % 32 = i + 1 := by omega
    rw [dif_neg hlast, hnext]
    by_cases hmem : i ∈ [0, 1, 2, 4, 6]
    · rw [if_pos hmem, decide_eq_true hmem, Bool.true_and, Bool.xor_comm, Bool.xor_assoc]
      rfl
    · rw [if_neg hmem, decide_eq_false hmem, Bool.false_and, Bool.xor_false, Bool.xor_comm]

theorem cells_injective : Function.Injective cells := by
  intro a b hab
  apply UInt32.toBitVec_inj.1
  apply BitVec.eq_of_getLsbD_eq
  intro i hi
  have hcell : (cells a)[i] = (cells b)[i] := by rw [hab]
  simpa only [cells, Vector.getElem_ofFn] using hcell

theorem step_injective_data (h : UInt32) : Function.Injective (step h) := by
  intro d d' hd
  exact UInt32.xor_right_inj _ |>.1 hd

theorem step_injective (d : UInt32) : Function.Injective fun h => step h d := by
  intro h h' hs
  have hcell : ∀ i < 32, (step h d).toBitVec.getLsbD i = (step h' d).toBitVec.getLsbD i := by
    intro i _
    rw [show step h d = step h' d from hs]
  -- the lowest cell of the register is seen alone in the top cell of the result
  have hzero : h.toBitVec.getLsbD 0 = h'.toBitVec.getLsbD 0 := by
    have htop := hcell 31 (by omega)
    rw [getLsbD_step h d (by omega), getLsbD_step h' d (by omega)] at htop
    simpa using htop
  apply UInt32.toBitVec_inj.1
  apply BitVec.eq_of_getLsbD_eq
  intro i hi
  cases i with
  | zero => exact hzero
  | succ i =>
    have hi' : i < 32 := by omega
    have hnext := hcell i hi'
    rw [getLsbD_step h d hi', getLsbD_step h' d hi', hzero] at hnext
    rw [Nat.mod_eq_of_lt hi] at hnext
    exact Bool.xor_left_inj.1 (Bool.xor_left_inj.1 hnext)

theorem fold_injective (ds : List UInt32) : Function.Injective fun h => fold h ds := by
  induction ds with
  | nil =>
    intro h h' hf
    exact hf
  | cons d ds ih =>
    intro h h' hf
    exact step_injective d (ih hf)

theorem fold_ne_of_one_word (h : UInt32) (before after : List UInt32) {d d' : UInt32}
    (hne : d ≠ d') : fold h (before ++ d :: after) ≠ fold h (before ++ d' :: after) := by
  intro hf
  rw [fold_append, fold_append, fold_cons, fold_cons] at hf
  exact hne (step_injective_data _ (fold_injective after hf))

end AfuBench.RollingHash
