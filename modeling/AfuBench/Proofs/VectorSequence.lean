import AfuBench.TestData.Generator
import Mathlib.Logic.Function.Iterate

namespace AfuBench

theorem length_flatten_of_forall {α : Type} {size : Nat} {blocks : List (List α)}
    (hlen : ∀ b ∈ blocks, b.length = size) : blocks.flatten.length = size * blocks.length := by
  rw [List.length_flatten, List.map_congr_left hlen, List.map_const', List.sum_replicate_nat,
    Nat.mul_comm]

def generated (seed : UInt64) (words i : Nat) : List UInt64 :=
  (nextVector seed)^[i] (initialVector seed words)

theorem vectorsFrom_eq_map (seed : UInt64) (n : Nat) (data : List UInt64) :
    vectorsFrom seed n data = (List.range n).map fun i => (nextVector seed)^[i] data := by
  induction n generalizing data with
  | zero => rfl
  | succ n ih =>
    rw [vectorsFrom_succ, ih, List.range_succ_eq_map, List.map_cons, List.map_map]
    rfl

theorem vectors_eq_map (seed : UInt64) (words n : Nat) :
    vectors seed words n = (List.range n).map (generated seed words) :=
  vectorsFrom_eq_map seed n _

theorem length_generated (seed : UInt64) (words i : Nat) :
    (generated seed words i).length = words := by
  induction i with
  | zero => exact length_initialVector seed words
  | succ i ih =>
    rw [generated] at ih
    rw [generated, Function.iterate_succ_apply', length_nextVector, ih]

theorem length_vectors (seed : UInt64) (words n : Nat) : (vectors seed words n).length = n :=
  length_vectorsFrom seed n _

theorem length_of_mem_vectors {seed : UInt64} {words n : Nat} {v : List UInt64}
    (hv : v ∈ vectors seed words n) : v.length = words := by
  rw [vectors_eq_map] at hv
  obtain ⟨i, _, rfl⟩ := List.mem_map.1 hv
  exact length_generated seed words i

theorem getElem?_vectors (seed : UInt64) (words : Nat) {n i : Nat} (hi : i < n) :
    (vectors seed words n)[i]? = some (generated seed words i) := by
  rw [vectors_eq_map, List.getElem?_map, List.getElem?_range hi, Option.map_some]

end AfuBench
