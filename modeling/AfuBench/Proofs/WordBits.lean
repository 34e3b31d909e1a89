import AfuBench.Word
import Mathlib.Algebra.Group.Nat.Defs

namespace AfuBench

namespace Word

theorem bit_ofNat (n i : Nat) : bit (UInt64.ofNat n) i = (decide (i < 64) && n.testBit i) := by
  change (BitVec.ofNat 64 n).getLsbD i = _
  rw [BitVec.getLsbD_ofNat]

theorem testBit_toNat (w : UInt64) (i : Nat) : w.toNat.testBit i = bit w i := by
  rw [bit, ← BitVec.testBit_toNat, UInt64.toNat_toBitVec]

theorem toBitVec_shiftAmount {k : Nat} (hk : k < 64) :
    (UInt64.ofNat k).toBitVec % 64 = BitVec.ofNat 64 k := by
  apply BitVec.eq_of_toNat_eq
  simp [BitVec.toNat_umod]
  omega

theorem bit_shiftLeft (w : UInt64) {k : Nat} (hk : k < 64) (i : Nat) :
    bit (w <<< UInt64.ofNat k) i = (decide (i < 64) && (decide (k ≤ i) && bit w (i - k))) := by
  have hk64 : k % 2 ^ 64 = k := by omega
  rw [bit, UInt64.toBitVec_shiftLeft, toBitVec_shiftAmount hk, BitVec.shiftLeft_eq',
    BitVec.toNat_ofNat, hk64, BitVec.getLsbD_shiftLeft, bit, ← Bool.and_assoc]
  simp only [← decide_not, Nat.not_lt]

theorem bit_shiftRight (w : UInt64) {k : Nat} (hk : k < 64) (i : Nat) :
    bit (w >>> UInt64.ofNat k) i = bit w (k + i) := by
  have hk64 : k % 2 ^ 64 = k := by omega
  rw [bit, UInt64.toBitVec_shiftRight, toBitVec_shiftAmount hk, BitVec.ushiftRight_eq',
    BitVec.toNat_ofNat, hk64, BitVec.getLsbD_ushiftRight, bit]

theorem bit_lowMask (k i : Nat) :
    bit (UInt64.ofNat (2 ^ k - 1)) i = (decide (i < 64) && decide (i < k)) := by
  rw [bit_ofNat, Nat.testBit_two_pow_sub_one]

theorem testBit_eq_false {n k i : Nat} (hn : n < 2 ^ k) (hi : k ≤ i) : n.testBit i = false :=
  Nat.testBit_lt_two_pow (Nat.lt_of_lt_of_le hn (Nat.pow_le_pow_right (by decide) hi))

theorem bit_xor (a b : UInt64) (i : Nat) : bit (a ^^^ b) i = (bit a i ^^ bit b i) := by
  simp [bit]

theorem bit_rotateLeft (w : UInt64) (n : Nat) {i : Nat} (hi : i < 64) :
    bit (rotateLeft w n) i = bit w ((i + 64 - n % 64) % 64) := by
  rw [bit, toBitVec_rotateLeft, BitVec.getLsbD_rotateLeft, bit]
  by_cases hlow : i < n % 64
  · have hturned : (i + 64 - n % 64) % 64 = 64 - n % 64 + i := by omega
    rw [decide_eq_true hlow, cond_true, hturned]
  · have hturned : (i + 64 - n % 64) % 64 = i - n % 64 := by omega
    rw [decide_eq_false hlow, cond_false, decide_eq_true hi, Bool.true_and, hturned]

theorem rotateLeft_xor (a b : UInt64) (n : Nat) :
    rotateLeft (a ^^^ b) n = rotateLeft a n ^^^ rotateLeft b n := by
  apply eq_of_bit
  intro i hi
  rw [bit_rotateLeft _ n hi, bit_xor, bit_xor, bit_rotateLeft a n hi, bit_rotateLeft b n hi]

theorem rotateLeft_rotateLeft (w : UInt64) (m n : Nat) :
    rotateLeft (rotateLeft w m) n = rotateLeft w (m + n) := by
  apply eq_of_bit
  intro i hi
  have hturned : ((i + 64 - n % 64) % 64 + 64 - m % 64) % 64 = (i + 64 - (m + n) % 64) % 64 := by
    omega
  rw [bit_rotateLeft _ n hi, bit_rotateLeft w m (by omega), bit_rotateLeft w (m + n) hi, hturned]

theorem rotateLeft_of_mod_eq (w : UInt64) {m n : Nat} (h : m % 64 = n % 64) :
    rotateLeft w m = rotateLeft w n := by
  apply eq_of_bit
  intro i hi
  rw [bit_rotateLeft w m hi, bit_rotateLeft w n hi, h]

theorem rotateLeft_zero (w : UInt64) : rotateLeft w 0 = w := by
  apply eq_of_bit
  intro i hi
  have hstill : (i + 64 - 0 % 64) % 64 = i := by omega
  rw [bit_rotateLeft w 0 hi, hstill]

theorem rotateLeft_injective (n : Nat) : Function.Injective (rotateLeft · n) := by
  intro v w hvw
  have hback (u : UInt64) : rotateLeft (rotateLeft u n) (64 - n % 64) = u := by
    have hfull : (n + (64 - n % 64)) % 64 = 0 % 64 := by omega
    rw [rotateLeft_rotateLeft, rotateLeft_of_mod_eq u hfull, rotateLeft_zero]
  rw [← hback v, ← hback w, show rotateLeft v n = rotateLeft w n from hvw]

end Word

end AfuBench
