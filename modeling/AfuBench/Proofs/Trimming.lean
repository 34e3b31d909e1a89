import AfuBench.Text.Blank
import Mathlib.Data.List.TakeWhile

namespace AfuBench

section

variable {α : Type} {p : α → Bool} {cs xs rest : List α}

theorem takeWhile_append_stop (hxs : ∀ x ∈ xs, p x) (hrest : ∀ x ∈ rest.head?, ¬ p x) :
    (xs ++ rest).takeWhile p = xs := by
  rw [List.takeWhile_append_of_pos hxs]
  cases rest with
  | nil => simp
  | cons x rest => simp [hrest x (by simp)]

theorem dropWhile_append_stop (hxs : ∀ x ∈ xs, p x) (hrest : ∀ x ∈ rest.head?, ¬ p x) :
    (xs ++ rest).dropWhile p = rest := by
  rw [List.dropWhile_append_of_pos hxs]
  cases rest with
  | nil => rfl
  | cons x rest => simp [hrest x (by simp)]

theorem not_head?_dropWhile (cs : List α) : ∀ x ∈ (cs.dropWhile p).head?, ¬ p x := by
  intro x hx
  have hstop := List.head?_dropWhile_not p cs
  rw [hx] at hstop
  simp [hstop]

theorem exists_front (p : α → Bool) (cs : List α) :
    ∃ xs rest, cs = xs ++ rest ∧ (∀ x ∈ xs, p x) ∧ ∀ x ∈ rest.head?, ¬ p x :=
  ⟨_, _, List.takeWhile_append_dropWhile.symm, fun _ => List.mem_takeWhile_imp,
    not_head?_dropWhile cs⟩

theorem takeWhile_dropWhile_iff :
    cs.takeWhile p = xs ∧ cs.dropWhile p = rest ↔
      cs = xs ++ rest ∧ (∀ x ∈ xs, p x) ∧ ∀ x ∈ rest.head?, ¬ p x := by
  constructor
  · rintro ⟨rfl, rfl⟩
    exact ⟨List.takeWhile_append_dropWhile.symm, fun x hx => List.mem_takeWhile_imp hx,
      not_head?_dropWhile cs⟩
  · rintro ⟨rfl, hxs, hrest⟩
    exact ⟨takeWhile_append_stop hxs hrest, dropWhile_append_stop hxs hrest⟩

end

namespace Text

variable {before cs after : List Char}

theorem trim_margins (hbefore : ∀ c ∈ before, isBlank c) (hafter : ∀ c ∈ after, isBlank c)
    (hhead : ∀ c ∈ cs.head?, ¬ isBlank c) (hlast : ∀ c ∈ cs.getLast?, ¬ isBlank c) :
    trim (before ++ (cs ++ after)) = cs := by
  rcases List.eq_nil_or_concat cs with rfl | ⟨front, last, rfl⟩
  · have hall : ∀ c ∈ before ++ ([] ++ after), isBlank c := by
      intro c hc
      rw [List.nil_append, List.mem_append] at hc
      exact hc.elim (hbefore c) (hafter c)
    rw [trim, List.dropWhile_eq_nil_iff.2 hall]
    rfl
  · have hfront : ∀ c ∈ (front.concat last ++ after).head?, ¬ isBlank c := by
      intro c hc
      refine hhead c ?_
      cases front <;> simpa using hc
    have hback : ∀ c ∈ (front.concat last).reverse.head?, ¬ isBlank c := by
      simpa using hlast
    rw [trim, dropWhile_append_stop hbefore hfront, trimEnd, List.reverse_append,
      dropWhile_append_stop (by simpa using hafter) hback, List.reverse_reverse]

theorem exists_trimEnd (cs : List Char) :
    ∃ after, cs = trimEnd cs ++ after ∧ ∀ c ∈ after, isBlank c := by
  refine ⟨(cs.reverse.takeWhile isBlank).reverse, ?_,
    fun c hc => List.mem_takeWhile_imp (List.mem_reverse.1 hc)⟩
  rw [trimEnd, ← List.reverse_append, List.takeWhile_append_dropWhile, List.reverse_reverse]

theorem exists_margins (cs : List Char) :
    ∃ before after, cs = before ++ (trim cs ++ after) ∧ (∀ c ∈ before, isBlank c) ∧
      ∀ c ∈ after, isBlank c := by
  obtain ⟨after, hsplit, hafter⟩ := exists_trimEnd (cs.dropWhile isBlank)
  refine ⟨cs.takeWhile isBlank, after, ?_, fun c hc => List.mem_takeWhile_imp hc, hafter⟩
  rw [trim, ← hsplit, List.takeWhile_append_dropWhile]

theorem not_isBlank_trim (cs : List Char) :
    (∀ c ∈ (trim cs).head?, ¬ isBlank c) ∧ ∀ c ∈ (trim cs).getLast?, ¬ isBlank c := by
  constructor
  · -- What is cut off at the end leaves the head as it is, if there is one.
    intro c hc
    change (trimEnd (cs.dropWhile isBlank)).head? = some c at hc
    obtain ⟨after, hsplit, _⟩ := exists_trimEnd (cs.dropWhile isBlank)
    refine not_head?_dropWhile cs c ?_
    rw [hsplit, List.head?_append, hc, Option.some_or, Option.mem_some]
  · intro c hc
    rw [trim, trimEnd, List.getLast?_reverse] at hc
    exact not_head?_dropWhile _ c hc

theorem trim_blank_append (hbefore : ∀ c ∈ before, isBlank c) (hafter : ∀ c ∈ after, isBlank c) :
    trim (before ++ (cs ++ after)) = trim cs := by
  obtain ⟨front, back, hcs, hfront, hback⟩ := exists_margins cs
  obtain ⟨hhead, hlast⟩ := not_isBlank_trim cs
  have hwhole : before ++ (cs ++ after) = (before ++ front) ++ (trim cs ++ (back ++ after)) := by
    calc before ++ (cs ++ after)
        = before ++ ((front ++ (trim cs ++ back)) ++ after) := by rw [← hcs]
      _ = (before ++ front) ++ (trim cs ++ (back ++ after)) := by simp
  rw [hwhole]
  refine trim_margins ?_ ?_ hhead hlast
  · intro c hc
    exact (List.mem_append.1 hc).elim (hbefore c) (hfront c)
  · intro c hc
    exact (List.mem_append.1 hc).elim (hback c) (hafter c)

end Text

end AfuBench
