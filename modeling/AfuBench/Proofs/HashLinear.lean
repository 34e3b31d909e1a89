import AfuBench.Proofs.LaneCollapse
import Mathlib.Logic.Function.Iterate

namespace AfuBench.RollingHash

def coast (h : UInt32) : UInt32 :=
  step h 0

theorem step_eq_coast (h d : UInt32) : step h d = coast h ^^^ d := by
  rw [coast, step, step, UInt32.xor_zero]

theorem coast_xor (h k : UInt32) : coast (h ^^^ k) = coast h ^^^ coast k :=
  step_xor h k 0 0

theorem coast_zero : coast 0 = 0 :=
  step_zero

theorem coast_injective : Function.Injective coast :=
  step_injective 0

theorem step_xor_state (h k d : UInt32) : step (h ^^^ k) d = step h d ^^^ coast k := by
  have hstep := step_xor h k d 0
  rw [UInt32.xor_zero] at hstep
  exact hstep

theorem step_xor_data (h d e : UInt32) : step h (d ^^^ e) = step h d ^^^ e := by
  rw [step_eq_coast, step_eq_coast, UInt32.xor_assoc]

theorem iterate_coast_xor (n : Nat) (h k : UInt32) :
    coast^[n] (h ^^^ k) = coast^[n] h ^^^ coast^[n] k := by
  induction n generalizing h k with
  | zero => rfl
  | succ n ih => rw [Function.iterate_succ_apply, coast_xor, ih]; rfl

theorem iterate_coast_eq_zero_iff (n : Nat) (h : UInt32) : coast^[n] h = 0 ↔ h = 0 := by
  have hstill : coast^[n] 0 = 0 := Function.iterate_fixed coast_zero n
  constructor
  · intro hh
    exact coast_injective.iterate n (hh.trans hstill.symm)
  · rintro rfl
    exact hstill

theorem fold_xor_state (h k : UInt32) (ds : List UInt32) :
    fold (h ^^^ k) ds = fold h ds ^^^ coast^[ds.length] k := by
  induction ds generalizing h k with
  | nil => rfl
  | cons d ds ih => rw [fold_cons, step_xor_state, ih]; rfl

theorem fold_modify (h p : UInt32) {ds : List UInt32} {i : Nat} (hi : i < ds.length) :
    fold h (ds.modify i (· ^^^ p)) = fold h ds ^^^ coast^[ds.length - 1 - i] p := by
  induction ds generalizing h i with
  | nil => exact absurd hi (Nat.not_lt_zero i)
  | cons d ds ih =>
    cases i with
    | zero => rw [List.modify_zero_cons, fold_cons, step_xor_data, fold_xor_state]; rfl
    | succ i =>
      have hlater : (d :: ds).length - 1 - (i + 1) = ds.length - 1 - i := by
        rw [List.length_cons]
        omega
      rw [List.modify_succ_cons, fold_cons, ih (step h d) (Nat.lt_of_succ_lt_succ hi), hlater,
        fold_cons]

theorem fold_map_xor {α : Type} (f g : α → UInt32) (h k : UInt32) (xs : List α) :
    fold (h ^^^ k) (xs.map fun x => f x ^^^ g x) = fold h (xs.map f) ^^^ fold k (xs.map g) := by
  induction xs generalizing h k with
  | nil => rfl
  | cons x xs ih => rw [List.map_cons, fold_cons, step_xor, ih]; rfl

end AfuBench.RollingHash
