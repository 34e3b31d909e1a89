import AfuBench.Afu.Config
import AfuBench.Proofs.WordBits
import AfuBench.Register.Burst
import AfuBench.Register.Capability
import AfuBench.Register.Map
import Mathlib.Algebra.Group.Nat.Defs

namespace AfuBench

namespace Word

theorem bit_ofBit_sub_one {n : Nat} (hn : n ≤ Register.maxEngines) (i : Nat) :
    bit (ofBit true n - 1) i = decide (i < n) := by
  have hlow : ∀ k ≤ 16, ofBit true k - 1 = UInt64.ofNat (2 ^ k - 1) := by decide
  have hlt : i < n → i < 64 := fun hi =>
    Nat.lt_of_lt_of_le hi (Nat.le_trans hn (by decide))
  rw [hlow n hn, bit_lowMask, ← Bool.decide_and]
  exact decide_eq_decide.2 ⟨And.right, fun hi => ⟨hlt hi, hi⟩⟩

end Word

theorem Burst.ofWord_toWord {b : Burst} (hcount : b.count < 2 ^ 16) (hsize : b.size < 2 ^ 16) :
    ofWord b.toWord = b := by
  have hword (i : Nat) : Word.bit b.toWord i =
      (b.enabled && decide (48 = i) ||
        decide (i < 64) && (decide (32 ≤ i) && (decide (i - 32 < 64) && b.count.testBit (i - 32))) ||
        decide (i < 64) && b.size.testBit i) := by
    rw [toWord, Word.bit_or, Word.bit_or, Word.bit_ofBit b.enabled (by decide),
      show (32 : UInt64) = UInt64.ofNat 32 from rfl, Word.bit_shiftLeft _ (by decide),
      Word.bit_ofNat, Word.bit_ofNat]
  have hmask (i : Nat) : Word.bit 0xffff i = (decide (i < 64) && decide (i < 16)) :=
    Word.bit_lowMask 16 i
  have henabled : Word.bit b.toWord 48 = b.enabled := by
    rw [hword, Word.testBit_eq_false hcount (by decide), Word.testBit_eq_false hsize (by decide)]
    simp
  have hcountField : (b.toWord >>> 32 &&& 0xffff).toNat = b.count := by
    apply Nat.eq_of_testBit_eq
    intro i
    rw [Word.testBit_toNat, Word.bit_and, hmask, show (32 : UInt64) = UInt64.ofNat 32 from rfl,
      Word.bit_shiftRight _ (by decide), hword, Word.testBit_eq_false hsize (i := 32 + i) (by omega)]
    by_cases hi : i < 16
    · have h1 : 48 ≠ 32 + i := by omega
      have h2 : 32 + i < 64 := by omega
      have h3 : i < 64 := by omega
      simp [hi, h1, h2, h3]
    · simp [hi, Word.testBit_eq_false hcount (Nat.le_of_not_lt hi)]
  have hsizeField : (b.toWord &&& 0xffff).toNat = b.size := by
    apply Nat.eq_of_testBit_eq
    intro i
    rw [Word.testBit_toNat, Word.bit_and, hmask, hword]
    by_cases hi : i < 16
    · have h1 : 48 ≠ i := by omega
      have h2 : ¬ 32 ≤ i := by omega
      have h3 : i < 64 := by omega
      simp [hi, h1, h2, h3]
    · simp [hi, Word.testBit_eq_false hsize (Nat.le_of_not_lt hi)]
  rw [ofWord, henabled, hcountField, hsizeField]

namespace Capabilities

theorem bit_statusWord (c : Capabilities) (activity : Activity) {i : Nat} (hi : i < 64) :
    Word.bit (statusWord c activity) i =
      (decide (56 ≤ i) && c.width.testBit (i - 56) || c.ordered && decide (39 = i) ||
        c.avalon && decide (35 = i) || c.natural && decide (15 = i) ||
        c.maxBurst.testBit i && decide (i < 15) ||
        (activity.inReset && decide (32 = i) || activity.running && decide (33 = i) ||
          activity.active && decide (34 = i) || activity.waitRequest && decide (40 = i))) := by
  have hwidth : Word.bit 0xff (i - 56) = (decide (i - 56 < 64) && decide (i - 56 < 8)) :=
    Word.bit_lowMask 8 _
  have hburst : Word.bit 0x7fff i = (decide (i < 64) && decide (i < 15)) :=
    Word.bit_lowMask 15 _
  have h8 : i - 56 < 8 := by omega
  have h64 : i - 56 < 64 := by omega
  simp only [statusWord, toWord, Activity.toWord, Word.bit_or,
    Word.bit_ofBit _ (show 39 < 64 by decide), Word.bit_ofBit _ (show 35 < 64 by decide),
    Word.bit_ofBit _ (show 15 < 64 by decide), Word.bit_ofBit _ (show 32 < 64 by decide),
    Word.bit_ofBit _ (show 33 < 64 by decide), Word.bit_ofBit _ (show 34 < 64 by decide),
    Word.bit_ofBit _ (show 40 < 64 by decide)]
  rw [show (56 : UInt64) = UInt64.ofNat 56 from rfl, Word.bit_shiftLeft _ (by decide),
    Word.bit_and, Word.bit_and, Word.bit_ofNat, Word.bit_ofNat, hwidth, hburst]
  simp only [hi, h8, h64, decide_true, Bool.true_and, Bool.and_true]

theorem maxBurst_ofWord_le (w : UInt64) : (ofWord w).maxBurst ≤ 0x7fff := by
  change (w &&& 0x7fff).toNat ≤ 0x7fff
  rw [UInt64.toNat_and]
  exact Nat.and_le_right

theorem ofWord_statusWord {c : Capabilities} (hfit : c.width < 2 ^ 8) (activity : Activity) :
    ofWord (statusWord c activity) = { c with maxBurst := c.maxBurst % 2 ^ 15 } := by
  have hwidthField : (statusWord c activity >>> 56).toNat = c.width := by
    apply Nat.eq_of_testBit_eq
    intro i
    rw [Word.testBit_toNat, show (56 : UInt64) = UInt64.ofNat 56 from rfl,
      Word.bit_shiftRight _ (by decide)]
    by_cases hi : i < 8
    · have hother : 39 ≠ 56 + i ∧ 35 ≠ 56 + i ∧ 15 ≠ 56 + i ∧ 32 ≠ 56 + i ∧ 33 ≠ 56 + i ∧
        34 ≠ 56 + i ∧ 40 ≠ 56 + i ∧ ¬ 56 + i < 15 := by omega
      rw [bit_statusWord _ _ (by omega)]
      simp [hother]
    · rw [Word.bit, BitVec.getLsbD_of_ge _ _ (by omega),
        Word.testBit_eq_false hfit (Nat.le_of_not_lt hi)]
  have hburstField :
      (statusWord c activity &&& 0x7fff).toNat = c.maxBurst % 2 ^ 15 := by
    apply Nat.eq_of_testBit_eq
    intro i
    have hburst : Word.bit 0x7fff i = (decide (i < 64) && decide (i < 15)) :=
      Word.bit_lowMask 15 _
    rw [Word.testBit_toNat, Word.bit_and, hburst, Nat.testBit_mod_two_pow]
    by_cases hi : i < 15
    · have h64 : i < 64 := by omega
      have hother : 39 ≠ i ∧ 35 ≠ i ∧ 15 ≠ i ∧ 32 ≠ i ∧ 33 ≠ i ∧ 34 ≠ i ∧ 40 ≠ i ∧ ¬ 56 ≤ i := by
        omega
      rw [bit_statusWord _ _ h64]
      simp [hi, h64, hother]
    · simp [hi]
  have hnatural : Word.bit (statusWord c activity) 15 = c.natural := by
    rw [bit_statusWord _ _ (by decide)]
    simp
  have havalon : Word.bit (statusWord c activity) 35 = c.avalon := by
    rw [bit_statusWord _ _ (by decide)]
    simp
  have hordered : Word.bit (statusWord c activity) 39 = c.ordered := by
    rw [bit_statusWord _ _ (by decide)]
    simp
  rw [ofWord, hwidthField, hburstField, hnatural, havalon, hordered]

end Capabilities

namespace AfuConfig

def reported (config : AfuConfig) : Capabilities :=
  .ofWord config.caps.toWord

theorem reported_eq {config : AfuConfig} (hv : config.Valid) :
    config.reported = { config.caps with maxBurst := config.caps.maxBurst % 2 ^ 15 } := by
  have hidle : statusWord config.caps ⟨false, false, false, false⟩ = config.caps.toWord :=
    UInt64.or_zero
  rw [reported, ← hidle, Capabilities.ofWord_statusWord (Nat.lt_succ_of_le hv.2.1)]

theorem ofWord_statusWord {config : AfuConfig} (hv : config.Valid) (activity : Activity) :
    Capabilities.ofWord (statusWord config.caps activity) = config.reported := by
  rw [reported_eq hv, Capabilities.ofWord_statusWord (Nat.lt_succ_of_le hv.2.1)]

theorem maxBurst_reported_lt (config : AfuConfig) : config.reported.maxBurst < 2 ^ 15 :=
  Nat.lt_succ_of_le (Capabilities.maxBurst_ofWord_le config.caps.toWord)

end AfuConfig

theorem Register.configEngines_configWord {engines : Nat} (h : engines ≤ maxEngines)
    (clockMhz : Nat) : configEngines (configWord engines clockMhz) = engines := by
  have hfit : engines < 2 ^ 8 := Nat.lt_of_le_of_lt h (by decide)
  have hmask (i : Nat) : Word.bit 0xff i = (decide (i < 64) && decide (i < 8)) :=
    Word.bit_lowMask 8 i
  apply Nat.eq_of_testBit_eq
  intro i
  rw [configEngines, Word.testBit_toNat, Word.bit_and, configWord, Word.bit_or, Word.bit_and,
    show (8 : UInt64) = UInt64.ofNat 8 from rfl, Word.bit_shiftLeft _ (by decide), hmask,
    Word.bit_ofNat]
  by_cases hi : i < 8
  · have h1 : i < 64 := by omega
    have h2 : ¬ 8 ≤ i := by omega
    simp [hi, h1, h2]
  · simp [hi, Word.testBit_eq_false hfit (Nat.le_of_not_lt hi)]

end AfuBench
