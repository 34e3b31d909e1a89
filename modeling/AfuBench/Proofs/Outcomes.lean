namespace AfuBench

variable {ε α β : Type}

theorem bind_eq_ok_iff {x : Except ε α} {k : α → Except ε β} {b : β} :
    x >>= k = .ok b ↔ ∃ a, x = .ok a ∧ k a = .ok b := by
  cases x with
  | error e => simp [bind, Except.bind]
  | ok a => simp [bind, Except.bind]

theorem bind_eq_error_iff {x : Except ε α} {k : α → Except ε β} {e : ε} :
    x >>= k = .error e ↔ x = .error e ∨ ∃ a, x = .ok a ∧ k a = .error e := by
  cases x with
  | error e => simp [bind, Except.bind]
  | ok a => simp [bind, Except.bind]

theorem map_eq_ok_iff {f : α → β} {x : Except ε α} {b : β} :
    x.map f = .ok b ↔ ∃ a, x = .ok a ∧ f a = b := by
  cases x with
  | error e => simp [Except.map]
  | ok a => simp [Except.map]

section

variable {f : α → Except ε β} {xs : List α}

theorem mapM_eq_ok {g : α → β} (h : ∀ x ∈ xs, f x = .ok (g x)) : xs.mapM f = .ok (xs.map g) := by
  induction xs with
  | nil => rfl
  | cons x xs ih =>
    rw [List.mapM_cons, h x List.mem_cons_self, ih fun y hy => h y (List.mem_cons_of_mem x hy)]
    rfl

theorem exists_mapM_eq_error (h : ∃ x ∈ xs, ∃ e, f x = .error e) :
    ∃ x ∈ xs, ∃ e, f x = .error e ∧ xs.mapM f = .error e := by
  induction xs with
  | nil => simp at h
  | cons x xs ih =>
    cases hx : f x with
    | error e =>
      refine ⟨x, List.mem_cons_self, e, hx, ?_⟩
      rw [List.mapM_cons, hx]
      rfl
    | ok b =>
      have hrest : ∃ y ∈ xs, ∃ e, f y = .error e := by
        obtain ⟨y, hy, e, he⟩ := h
        rcases List.mem_cons.1 hy with rfl | hy
        · exact absurd (hx.symm.trans he) (by simp)
        · exact ⟨y, hy, e, he⟩
      obtain ⟨y, hy, e, he, hmap⟩ := ih hrest
      refine ⟨y, List.mem_cons_of_mem x hy, e, he, ?_⟩
      rw [List.mapM_cons, hx, hmap]
      rfl

end

end AfuBench
