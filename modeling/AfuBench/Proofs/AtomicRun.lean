import AfuBench.Proofs.AtomicCheck
import Mathlib.Data.List.Nodup

namespace AfuBench.Atomic

structure Served (w : Width) (done : List Nat) (bufs : List UInt64 × List UInt64) : Prop where
  length_atomic : bufs.1.length = bufferWords
  length_writeBack : bufs.2.length = bufferWords
  atomic : ∀ i < w.entries, entry w bufs.1 i =
    if i ∈ done then updated w i (initialValue w i) else initialValue w i
  writeBack : ∀ i < w.entries, entry w bufs.2 i = if i ∈ done then initialValue w i else 0

variable {w : Width} {done order : List Nat} {bufs : List UInt64 × List UInt64}

theorem served_nil {atomic writeBack : List UInt64} (hatomic : atomic.length = bufferWords)
    (hback : writeBack.length = bufferWords)
    (hinitial : ∀ i < w.entries, entry w atomic i = initialValue w i)
    (hzero : ∀ i < w.entries, entry w writeBack i = 0) : Served w [] (atomic, writeBack) where
  length_atomic := hatomic
  length_writeBack := hback
  atomic i hi := by rw [hinitial i hi, if_neg List.not_mem_nil]
  writeBack i hi := by rw [hzero i hi, if_neg List.not_mem_nil]

theorem served_start (w : Width) :
    Served w [] (initialBuffer w, List.replicate bufferWords 0) :=
  served_nil (length_build w _) List.length_replicate
    (fun _ hi => entry_build_of_fits w.fits_initialValue hi)
    (fun i _ => entry_replicate_zero w bufferWords i)

namespace Served

theorem serve?_eq (h : Served w done bufs) {i : Nat} (hi : i < w.entries) :
    serve? w bufs i = .ok (serve w bufs i) := by
  have hword := Width.wordOf_lt hi
  have hatomic : w.wordOf i < bufs.1.length := by
    rw [h.length_atomic]
    exact hword
  have hback : w.wordOf i < bufs.2.length := by
    rw [h.length_writeBack]
    exact hword
  simp only [serve?, entry?_eq hatomic, setEntry?_eq hatomic, setEntry?_eq hback]
  rfl

theorem serve (h : Served w done bufs) {i : Nat} (hi : i < w.entries) (hnew : i ∉ done) :
    Served w (done ++ [i]) (serve w bufs i) := by
  have hword := Width.wordOf_lt hi
  have hold : entry w bufs.1 i = initialValue w i := by
    rw [h.atomic i hi, if_neg hnew]
  have hinitial := w.fits_initialValue i
  have hother {j : Nat} (hj : i ≠ j) : j ∈ done ++ [i] ↔ j ∈ done := by
    simp [hj.symm]
  refine ⟨?_, ?_, ?_, ?_⟩
  · rw [Atomic.serve, length_setEntry, h.length_atomic]
  · rw [Atomic.serve, length_setEntry, h.length_writeBack]
  · intro j hj
    by_cases hsame : i = j
    · subst hsame
      rw [Atomic.serve, entry_setEntry_self (by rw [h.length_atomic]; exact hword), hold,
        if_pos (List.mem_append_right done List.mem_cons_self)]
      exact Width.fits_updated hinitial i
    · rw [Atomic.serve, entry_setEntry_of_ne hsame, h.atomic j hj]
      simp only [hother hsame]
  · intro j hj
    by_cases hsame : i = j
    · subst hsame
      rw [Atomic.serve, entry_setEntry_self (by rw [h.length_writeBack]; exact hword), hold,
        if_pos (List.mem_append_right done List.mem_cons_self)]
      exact hinitial
    · rw [Atomic.serve, entry_setEntry_of_ne hsame, h.writeBack j hj]
      simp only [hother hsame]

theorem run (h : Served w done bufs) (hbound : ∀ i ∈ order, i < w.entries)
    (hnodup : (done ++ order).Nodup) :
    ∃ final, order.foldlM (serve? w) bufs = .ok final ∧ Served w (done ++ order) final := by
  -- on the requests left; what was served is in `done`, so the invariant goes with the loop
  induction order generalizing done bufs with
  | nil => exact ⟨bufs, rfl, by rwa [List.append_nil]⟩
  | cons i order ih =>
    have hi := hbound i List.mem_cons_self
    have hnew : i ∉ done := fun hmem =>
      (List.nodup_append.1 hnodup).2.2 i hmem i List.mem_cons_self rfl
    have hsplit : done ++ i :: order = done ++ [i] ++ order := by
      rw [List.append_assoc, List.singleton_append]
    rw [hsplit] at hnodup
    obtain ⟨final, hrun, hfinal⟩ :=
      ih (h.serve hi hnew) (fun j hj => hbound j (List.mem_cons_of_mem i hj)) hnodup
    refine ⟨final, ?_, ?_⟩
    · rw [List.foldlM_cons, h.serve?_eq hi]
      exact hrun
    · rw [hsplit]
      exact hfinal

theorem eq_build (h : Served w done bufs) {n : Nat} (hdone : ∀ i, i ∈ done ↔ i < n) :
    bufs = (build w (expectedValue w n), build w (returnedValue w n)) := by
  have hatomic : bufs.1 = build w (expectedValue w n) := by
    apply buffer_ext (w := w) (by rw [h.length_atomic, length_build])
    intro i hi
    rw [h.length_atomic] at hi
    rw [h.atomic i hi, entry_build_of_fits (w.fits_expectedValue n) hi, expectedValue]
    simp only [hdone]
  have hback : bufs.2 = build w (returnedValue w n) := by
    apply buffer_ext (w := w) (by rw [h.length_writeBack, length_build])
    intro i hi
    rw [h.length_writeBack] at hi
    rw [h.writeBack i hi, entry_build_of_fits (w.fits_returnedValue n) hi, returnedValue]
    simp only [hdone]
  rw [← hatomic, ← hback]

end Served

theorem check_build {n : Nat} (hn : n ≤ w.entries) :
    check w (build w (expectedValue w n)) (build w (returnedValue w n)) n = .ok [] := by
  refine check_eq_ok_iff.2 ⟨hn, Nat.le_of_eq (length_build w _).symm,
    Nat.le_of_eq (length_build w _).symm, (differences_eq_nil_iff.2 ⟨?_, ?_⟩).symm⟩
  · exact fun i hi => entry_build_of_fits (w.fits_expectedValue n) hi
  · exact fun i hi => entry_build_of_fits (w.fits_returnedValue n) hi

theorem serve_anyOrder (w : Width) {n : Nat} (hn : n ≤ w.entries) {order : List Nat}
    (horder : order.Perm (List.range n)) :
    ∃ expected returned, expectedBuffer w n = .ok expected ∧ returnedBuffer w n = .ok returned ∧
      order.foldlM (serve? w) (initialBuffer w, List.replicate bufferWords 0) =
        .ok (expected, returned) ∧
      check w expected returned n = .ok [] := by
  have hmem (i : Nat) : i ∈ order ↔ i < n := by
    rw [horder.mem_iff, List.mem_range]
  have hnodup : ([] ++ order).Nodup := horder.nodup_iff.2 List.nodup_range
  have hbound (i : Nat) (hi : i ∈ order) : i < w.entries :=
    Nat.lt_of_lt_of_le ((hmem i).1 hi) hn
  obtain ⟨final, hrun, hfinal⟩ := (served_start w).run hbound hnodup
  rw [hfinal.eq_build hmem] at hrun
  exact ⟨_, _, expectedBuffer_eq hn, returnedBuffer_eq hn, hrun, check_build hn⟩

/-- Entries 4 and 5 share a word, and the compare of entry 5 matches. -/
theorem serve_anyOrder_six :
    6 ≤ Width.entries .bits32 ∧ [5, 0, 4, 1, 3, 2].Perm (List.range 6) ∧
      ∃ expected returned, expectedBuffer .bits32 6 = .ok expected ∧
        [5, 0, 4, 1, 3, 2].foldlM (serve? .bits32)
            (initialBuffer .bits32, List.replicate bufferWords 0) = .ok (expected, returned) ∧
        check .bits32 expected returned 6 = .ok [] ∧
        entry .bits32 expected 4 = 0x104 ∧ entry .bits32 returned 4 = 0xffffffff ∧
        entry .bits32 expected 5 = 0x12345 ∧ entry .bits32 returned 5 = 0x105 := by
  have hn : 6 ≤ Width.entries .bits32 := by decide
  have horder : [5, 0, 4, 1, 3, 2].Perm (List.range 6) := by decide
  obtain ⟨expected, returned, hexpected, hreturned, hrun, hcheck⟩ :=
    serve_anyOrder .bits32 hn horder
  have hatomic (i : Nat) (hi : i < Width.entries .bits32) :
      entry .bits32 expected i = expectedValue .bits32 6 i := by
    rw [expectedBuffer_eq hn, Except.ok.injEq] at hexpected
    rw [← hexpected, entry_build_of_fits (Width.fits_expectedValue .bits32 6) hi]
  have hback (i : Nat) (hi : i < Width.entries .bits32) :
      entry .bits32 returned i = returnedValue .bits32 6 i := by
    rw [returnedBuffer_eq hn, Except.ok.injEq] at hreturned
    rw [← hreturned, entry_build_of_fits (Width.fits_returnedValue .bits32 6) hi]
  refine ⟨hn, horder, expected, returned, hexpected, hrun, hcheck, ?_, ?_, ?_, ?_⟩
  · rw [hatomic 4 (by decide)]
    decide
  · rw [hback 4 (by decide)]
    decide
  · rw [hatomic 5 (by decide)]
    decide
  · rw [hback 5 (by decide)]
    decide

end AfuBench.Atomic
