import AfuBench.Proofs.LaneHash
import Mathlib.Data.FinEnum
import Mathlib.Data.Fintype.EquivFin

namespace AfuBench.RollingHash

theorem cells_fold (h : UInt32) (ds : List UInt32) :
    cells (fold h ds) = (ds.map cells).foldl beat (cells h) := by
  induction ds generalizing h with
  | nil => rfl
  | cons d ds ih => rw [fold_cons, ih, cells_step, List.map_cons, List.foldl_cons]

theorem eq_fold_iff {w h : UInt32} {ds : List UInt32} :
    w = fold h ds ↔ cells w = (ds.map cells).foldl beat (cells h) := by
  rw [← cells_fold]
  exact cells_injective.eq_iff.symm

theorem step_bijective_data (h : UInt32) : Function.Bijective (step h) :=
  Finite.injective_iff_bijective.1 (step_injective_data h)

theorem fold_bijective (ds : List UInt32) : Function.Bijective fun h => fold h ds :=
  Finite.injective_iff_bijective.1 (fold_injective ds)

theorem fold_bijective_word (h : UInt32) (before after : List UInt32) :
    Function.Bijective fun d => fold h (before ++ d :: after) := by
  have hsplit : (fun d => fold h (before ++ d :: after)) =
      (fun g => fold g after) ∘ step (fold h before) := by
    funext d
    rw [fold_append, fold_cons]
    rfl
  rw [hsplit]
  exact (fold_bijective after).comp (step_bijective_data _)

theorem fold_bijective_set (h : UInt32) {ds : List UInt32} {t : Nat} (ht : t < ds.length) :
    Function.Bijective fun d => fold h (ds.set t d) := by
  simp only [List.set_eq_take_append_cons_drop, if_pos ht]
  exact fold_bijective_word h (ds.take t) (ds.drop (t + 1))

theorem bitwise_bijective (h : UInt32) (ds : List UInt32) :
    (∀ w, w = fold h ds ↔ cells w = (ds.map cells).foldl beat (cells h)) ∧
      Function.Bijective (fun g => fold g ds) ∧
      (∀ t < ds.length, Function.Bijective fun d => fold h (ds.set t d)) ∧
      ∀ t es, DiffersAt t ds es → fold h ds ≠ fold h es := by
  refine ⟨?_, fold_bijective ds, ?_, ?_⟩
  · intro w
    exact eq_fold_iff
  · intro t ht
    exact fold_bijective_set h ht
  · intro t es hd
    exact fold_ne hd

/-- The words differ in the bit that is shifted out last. -/
theorem bitwise_bijective_fourWords :
    2 < [(1 : UInt32), 2, 3, 0xffff0000].length ∧
      DiffersAt 2 [(1 : UInt32), 2, 3, 0xffff0000] [1, 2, 0x80000003, 0xffff0000] ∧
      (Function.Bijective fun d => fold initial [1, 2, d, 0xffff0000]) ∧
      fold initial [1, 2, 3, 0xffff0000] ≠ fold initial [1, 2, 0x80000003, 0xffff0000] := by
  have hlt : 2 < [(1 : UInt32), 2, 3, 0xffff0000].length := by decide
  have hdiffers : DiffersAt 2 [(1 : UInt32), 2, 3, 0xffff0000] [1, 2, 0x80000003, 0xffff0000] :=
    DiffersAt.of_split [1, 2] [0xffff0000] (by decide)
  obtain ⟨_, _, hword, hne⟩ := bitwise_bijective initial [1, 2, 3, 0xffff0000]
  exact ⟨hlt, hdiffers, hword 2 hlt, hne 2 _ hdiffers⟩

end AfuBench.RollingHash
