import AfuBench.Proofs.WordBits

namespace AfuBench.Word

theorem xor_eq_left_iff {a b : UInt32} : a ^^^ b = a ↔ b = 0 := by
  have hcancel := UInt32.xor_right_inj (a := b) (b := 0) a
  rw [UInt32.xor_zero] at hcancel
  exact hcancel

theorem getLsbD_lowLane (w : UInt64) {i : Nat} (hi : i < 32) :
    (lowLane w).toBitVec.getLsbD i = w.toBitVec.getLsbD i := by
  simp [lowLane, hi]

theorem getLsbD_highLane (w : UInt64) {i : Nat} (hi : i < 32) :
    (highLane w).toBitVec.getLsbD i = w.toBitVec.getLsbD (32 + i) := by
  simp [highLane, hi]

theorem eq_of_lanes {v w : UInt64} (hlow : lowLane v = lowLane w)
    (hhigh : highLane v = highLane w) : v = w := by
  apply eq_of_bit
  intro i hi
  by_cases hlane : i < 32
  · rw [bit, bit, ← getLsbD_lowLane v hlane, hlow, getLsbD_lowLane w hlane]
  · have hat : 32 + (i - 32) = i := by omega
    have hbit := getLsbD_highLane v (show i - 32 < 32 by omega)
    rw [hhigh, getLsbD_highLane w (by omega), hat] at hbit
    exact hbit.symm

theorem lowLane_xor (v w : UInt64) : lowLane (v ^^^ w) = lowLane v ^^^ lowLane w := by
  simp [lowLane]

theorem highLane_xor (v w : UInt64) : highLane (v ^^^ w) = highLane v ^^^ highLane w := by
  apply UInt32.toBitVec_inj.1
  apply BitVec.eq_of_getLsbD_eq
  intro i hi
  rw [UInt32.toBitVec_xor, BitVec.getLsbD_xor, getLsbD_highLane _ hi, getLsbD_highLane v hi,
    getLsbD_highLane w hi, UInt64.toBitVec_xor, BitVec.getLsbD_xor]

theorem ofLanes_xor (a b c d : UInt32) :
    ofLanes (a ^^^ b) (c ^^^ d) = ofLanes a c ^^^ ofLanes b d := by
  apply eq_of_lanes
  · rw [lowLane_xor, lowLane_ofLanes, lowLane_ofLanes, lowLane_ofLanes]
  · rw [highLane_xor, highLane_ofLanes, highLane_ofLanes, highLane_ofLanes]

end AfuBench.Word
