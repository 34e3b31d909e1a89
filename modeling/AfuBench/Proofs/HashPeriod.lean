import AfuBench.Proofs.HashLinear
import Mathlib.Dynamics.PeriodicPts.Lemmas
import Mathlib.Tactic.NormNum.Prime
/-!
The period of the rolling hash. The words of the register multiply like polynomials of which one
beat is the multiplication by the variable; so a long run without data is one product, and a few
squarings tell which runs leave a word as it was.
-/

namespace AfuBench.RollingHash

theorem getLsbD_coast (h : UInt32) {i : Nat} (hi : i < 32) :
    (coast h).toBitVec.getLsbD i =
      (h.toBitVec.getLsbD ((i + 1) % 32) ^^
        (decide (i ∈ [0, 1, 2, 4, 6]) && h.toBitVec.getLsbD 0)) := by
  rw [coast, getLsbD_step h 0 hi]
  simp

def one : UInt32 :=
  0x80000000

def horner (a h : UInt32) (cells : List Nat) (r : UInt32) : UInt32 :=
  cells.foldl (fun r i => coast r ^^^ if a.toBitVec.getLsbD i then h else 0) r

/-- Horner's rule over the cells of `a`, of which the lowest is that of the highest power. -/
def mul (a h : UInt32) : UInt32 :=
  horner a h (List.range 32) 0

section Horner

variable (a b h k r s : UInt32) (cells : List Nat)

theorem horner_cons (i : Nat) :
    horner a h (i :: cells) r =
      horner a h cells (coast r ^^^ if a.toBitVec.getLsbD i then h else 0) := rfl

theorem xor_xor_xor_comm (x y z w : UInt32) : x ^^^ y ^^^ (z ^^^ w) = x ^^^ z ^^^ (y ^^^ w) := by
  ac_rfl

theorem horner_xor_left :
    horner (a ^^^ b) h cells (r ^^^ s) = horner a h cells r ^^^ horner b h cells s := by
  induction cells generalizing r s with
  | nil => rfl
  | cons i cells ih =>
    have hcell : (if (a ^^^ b).toBitVec.getLsbD i then h else 0) =
        (if a.toBitVec.getLsbD i then h else 0) ^^^ if b.toBitVec.getLsbD i then h else 0 := by
      rw [UInt32.toBitVec_xor, BitVec.getLsbD_xor]
      cases a.toBitVec.getLsbD i <;> cases b.toBitVec.getLsbD i <;> simp
    rw [horner_cons, horner_cons, horner_cons, coast_xor, hcell, xor_xor_xor_comm, ih]

theorem horner_xor_right :
    horner a (h ^^^ k) cells (r ^^^ s) = horner a h cells r ^^^ horner a k cells s := by
  induction cells generalizing r s with
  | nil => rfl
  | cons i cells ih =>
    have hcell : (if a.toBitVec.getLsbD i then h ^^^ k else 0) =
        (if a.toBitVec.getLsbD i then h else 0) ^^^ if a.toBitVec.getLsbD i then k else 0 := by
      cases a.toBitVec.getLsbD i <;> simp
    rw [horner_cons, horner_cons, horner_cons, coast_xor, hcell, xor_xor_xor_comm, ih]

theorem horner_coast : horner a (coast h) cells (coast r) = coast (horner a h cells r) := by
  induction cells generalizing r with
  | nil => rfl
  | cons i cells ih =>
    have hcell : (if a.toBitVec.getLsbD i then coast h else 0) =
        coast (if a.toBitVec.getLsbD i then h else 0) := by
      cases a.toBitVec.getLsbD i <;> simp [coast_zero]
    rw [horner_cons, horner_cons, hcell, ← coast_xor, ih]

end Horner

theorem mul_xor_left (a b h : UInt32) : mul (a ^^^ b) h = mul a h ^^^ mul b h :=
  horner_xor_left a b h 0 0 (List.range 32)

theorem mul_xor_right (a h k : UInt32) : mul a (h ^^^ k) = mul a h ^^^ mul a k :=
  horner_xor_right a h k 0 0 (List.range 32)

theorem mul_coast_right (a h : UInt32) : mul a (coast h) = coast (mul a h) := by
  have hrun := horner_coast a h 0 (List.range 32)
  rw [coast_zero] at hrun
  exact hrun

theorem mul_zero_right (a : UInt32) : mul a 0 = 0 := by
  have hsum := mul_xor_right a 0 0
  rw [UInt32.xor_self, UInt32.xor_self] at hsum
  exact hsum

theorem mul_zero_left (h : UInt32) : mul 0 h = 0 := by
  have hsum := mul_xor_left 0 0 h
  rw [UInt32.xor_self, UInt32.xor_self] at hsum
  exact hsum

theorem getLsbD_horner_one (a : UInt32) {n : Nat} (hn : n ≤ 32) {j : Nat} (hj : j < 32) :
    (horner a one (List.range n) 0).toBitVec.getLsbD j =
      (decide (32 ≤ j + n) && a.toBitVec.getLsbD (j + n - 32)) := by
  induction n generalizing j with
  | zero =>
    have hnone : ¬ 32 ≤ j + 0 := by omega
    rw [decide_eq_false hnone, Bool.false_and]
    simp [horner]
  | succ n ih =>
    have hsucc : horner a one (List.range (n + 1)) 0 =
        coast (horner a one (List.range n) 0) ^^^
          if a.toBitVec.getLsbD n then one else 0 := by
      rw [horner, List.range_succ, List.foldl_append]
      rfl
    have hlow : (horner a one (List.range n) 0).toBitVec.getLsbD 0 = false := by
      have hnone : ¬ 32 ≤ 0 + n := by omega
      rw [ih (by omega) (by decide), decide_eq_false hnone, Bool.false_and]
    have htop : (if a.toBitVec.getLsbD n then one else 0).toBitVec.getLsbD j =
        (decide (j = 31) && a.toBitVec.getLsbD n) := by
      have hone : ∀ j < 32, one.toBitVec.getLsbD j = decide (j = 31) := by decide
      cases a.toBitVec.getLsbD n
      · simp
      · rw [if_pos rfl, hone j hj, Bool.and_true]
    rw [hsucc, UInt32.toBitVec_xor, BitVec.getLsbD_xor, getLsbD_coast _ hj, hlow, Bool.and_false,
      Bool.xor_false, htop]
    by_cases hlast : j = 31
    · subst hlast
      have hat : 31 + (n + 1) - 32 = n := by omega
      have hin : 32 ≤ 31 + (n + 1) := by omega
      rw [Nat.mod_self, hlow, Bool.false_xor, hat, decide_eq_true hin, decide_eq_true rfl]
    · have hnext : (j + 1) % 32 = j + 1 := by omega
      have hat : j + 1 + n = j + (n + 1) := by omega
      rw [hnext, ih (by omega) (by omega), hat, decide_eq_false hlast, Bool.false_and,
        Bool.xor_false]

theorem mul_one_right (a : UInt32) : mul a one = a := by
  apply UInt32.toBitVec_inj.1
  apply BitVec.eq_of_getLsbD_eq
  intro j hj
  have hall : 32 ≤ j + 32 := by omega
  rw [mul, getLsbD_horner_one a (Nat.le_refl 32) hj, decide_eq_true hall, Bool.true_and,
    Nat.add_sub_cancel]

theorem coast_induction {P : UInt32 → Prop} (zero : P 0) (top : P one)
    (beat : ∀ h, P h → P (coast h)) (xor : ∀ h k, P h → P k → P (h ^^^ k)) (h : UInt32) : P h := by
  have hrun : ∀ (cells : List Nat) (r : UInt32), P r → P (horner h one cells r) := by
    intro cells
    induction cells with
    | nil => exact fun r hr => hr
    | cons i cells ih =>
      intro r hr
      refine ih _ (xor _ _ (beat r hr) ?_)
      split
      · exact top
      · exact zero
  rw [← mul_one_right h]
  exact hrun _ 0 zero

theorem mul_one_left (h : UInt32) : mul one h = h := by
  induction h using coast_induction with
  | zero => exact mul_zero_right one
  | top => exact mul_one_right one
  | beat h ih => rw [mul_coast_right, ih]
  | xor h k ihh ihk => rw [mul_xor_right, ihh, ihk]

theorem mul_coast_left (a h : UInt32) : mul (coast a) h = coast (mul a h) := by
  induction h using coast_induction with
  | zero => rw [mul_zero_right, mul_zero_right, coast_zero]
  | top => rw [mul_one_right, mul_one_right]
  | beat h ih => rw [mul_coast_right, mul_coast_right, ih]
  | xor h k ihh ihk => rw [mul_xor_right, mul_xor_right, coast_xor, ihh, ihk]

theorem mul_assoc (a b h : UInt32) : mul (mul a b) h = mul a (mul b h) := by
  induction a using coast_induction with
  | zero => rw [mul_zero_left, mul_zero_left, mul_zero_left]
  | top => rw [mul_one_left, mul_one_left]
  | beat a ih => rw [mul_coast_left, mul_coast_left, mul_coast_left, ih]
  | xor a c iha ihc => rw [mul_xor_left, mul_xor_left, mul_xor_left, iha, ihc]

def square (a : UInt32) : UInt32 :=
  mul a a

/-- The number of beats of a climb: a factor `2 ^ 2 ^ j + 1` for each stage `j`. -/
def beats : List Nat → Nat
  | [] => 1
  | j :: js => (2 ^ 2 ^ j + 1) * beats js

/-- The word that stands for that number of beats, by squarings. -/
def climb : List Nat → UInt32
  | [] => coast one
  | j :: js => mul (square^[2 ^ j] (climb js)) (climb js)

theorem iterate_coast_squares {n : Nat} {a : UInt32} (ha : ∀ h, coast^[n] h = mul a h) (k : Nat)
    (h : UInt32) : coast^[2 ^ k * n] h = mul (square^[k] a) h := by
  induction k generalizing h with
  | zero => rw [Nat.pow_zero, Nat.one_mul, ha, Function.iterate_zero_apply]
  | succ k ih =>
    have hdouble : 2 ^ (k + 1) * n = 2 ^ k * n + 2 ^ k * n := by
      rw [Nat.pow_succ, Nat.mul_right_comm, Nat.mul_two]
    rw [hdouble, Function.iterate_add_apply, ih, ih, Function.iterate_succ_apply', square, mul_assoc]

theorem iterate_coast_climb (js : List Nat) (h : UInt32) :
    coast^[beats js] h = mul (climb js) h := by
  induction js generalizing h with
  | nil => rw [climb, mul_coast_left, mul_one_left]; rfl
  | cons j js ih =>
    rw [beats, climb, Nat.add_mul, Nat.one_mul, Function.iterate_add_apply, ih,
      iterate_coast_squares ih, mul_assoc]

theorem beats_all : beats [0, 1, 2, 3, 4] = 2 ^ 32 - 1 := by decide

theorem iterate_coast_all (h : UInt32) : coast^[2 ^ 32 - 1] h = h := by
  have hclimb : climb [0, 1, 2, 3, 4] = one := by decide +kernel
  rw [← beats_all, iterate_coast_climb, hclimb, mul_one_left]

theorem eq_zero_of_mul_eq {a b h : UInt32} (hinv : mul b (a ^^^ one) = one) (hfix : mul a h = h) :
    h = 0 := by
  have hgone : mul (a ^^^ one) h = 0 := by
    rw [mul_xor_left, hfix, mul_one_left, UInt32.xor_self]
  rw [← mul_one_left h, ← hinv, mul_assoc, hgone, mul_zero_right]

theorem prime_dvd_all {q : Nat} (hq : q.Prime) (hdvd : q ∣ 2 ^ 32 - 1) :
    q = 3 ∨ q = 5 ∨ q = 17 ∨ q = 257 ∨ q = 65537 := by
  have hfactors : 2 ^ 32 - 1 = 3 * 5 * 17 * 257 * 65537 := by decide
  have hprime {p : Nat} (hp : p.Prime) (h : q ∣ p) : q = p := (Nat.prime_dvd_prime_iff_eq hq hp).1 h
  rw [hfactors, hq.dvd_mul, hq.dvd_mul, hq.dvd_mul, hq.dvd_mul] at hdvd
  rcases hdvd with (((h | h) | h) | h) | h
  · exact .inl (hprime (by norm_num) h)
  · exact .inr (.inl (hprime (by norm_num) h))
  · exact .inr (.inr (.inl (hprime (by norm_num) h)))
  · exact .inr (.inr (.inr (.inl (hprime (by norm_num) h))))
  · exact .inr (.inr (.inr (.inr (hprime (by norm_num) h))))

theorem eq_zero_of_climb (js : List Nat) (b : UInt32) {n : Nat} {h : UInt32} (hn : n = beats js)
    (hinv : mul b (climb js ^^^ one) = one) (hfix : coast^[n] h = h) : h = 0 := by
  rw [hn, iterate_coast_climb] at hfix
  exact eq_zero_of_mul_eq hinv hfix

theorem eq_zero_of_iterate_coast {q : Nat} (hq : q.Prime) (hdvd : q ∣ 2 ^ 32 - 1) {h : UInt32}
    (hfix : coast^[(2 ^ 32 - 1) / q] h = h) : h = 0 := by
  -- the stage that makes the prime is left out, and the word inverts the rest of the climb less one
  rcases prime_dvd_all hq hdvd with rfl | rfl | rfl | rfl | rfl
  · exact eq_zero_of_climb [1, 2, 3, 4] 0xfd75ae71 (by decide) (by decide +kernel) hfix
  · exact eq_zero_of_climb [0, 2, 3, 4] 0x8d0cd3db (by decide) (by decide +kernel) hfix
  · exact eq_zero_of_climb [0, 1, 3, 4] 0x11f2ad9a (by decide) (by decide +kernel) hfix
  · exact eq_zero_of_climb [0, 1, 2, 4] 0xb4633684 (by decide) (by decide +kernel) hfix
  · exact eq_zero_of_climb [0, 1, 2, 3] 0x35f55bb3 (by decide) (by decide +kernel) hfix

theorem minimalPeriod_coast {h : UInt32} (hne : h ≠ 0) :
    Function.minimalPeriod coast h = 2 ^ 32 - 1 := by
  obtain ⟨m, hm⟩ : Function.minimalPeriod coast h ∣ 2 ^ 32 - 1 :=
    Function.IsPeriodicPt.minimalPeriod_dvd (iterate_coast_all h)
  -- a smaller period would still divide the full one with one of its primes taken out
  by_contra hless
  have hm1 : m ≠ 1 := by
    rintro rfl
    exact hless (hm.trans (Nat.mul_one _)).symm
  obtain ⟨q, hq, n, rfl⟩ := Nat.exists_prime_and_dvd hm1
  have hquot : (2 ^ 32 - 1) / q = Function.minimalPeriod coast h * n := by
    rw [hm, Nat.mul_left_comm, Nat.mul_div_cancel_left _ hq.pos]
  have hdvd : q ∣ 2 ^ 32 - 1 := ⟨Function.minimalPeriod coast h * n, by rw [hm, Nat.mul_left_comm]⟩
  have hfix : coast^[(2 ^ 32 - 1) / q] h = h := by
    rw [hquot]
    exact (Function.isPeriodicPt_minimalPeriod coast h).mul_const n
  exact hne (eq_zero_of_iterate_coast hq hdvd hfix)

theorem iterate_coast_eq_self_iff {h : UInt32} (hne : h ≠ 0) (k : Nat) :
    coast^[k] h = h ↔ 2 ^ 32 - 1 ∣ k := by
  rw [← minimalPeriod_coast hne]
  exact Function.isPeriodicPt_iff_minimalPeriod_dvd

end AfuBench.RollingHash
