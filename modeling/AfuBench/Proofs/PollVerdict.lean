import AfuBench.Bench.Poll
import Mathlib.Data.ENat.Lattice

namespace AfuBench

/-- The position, counted from one, of the first answer that is not `false`. -/
noncomputable def deciding (answers : Nat → Except BenchError Bool) : ℕ∞ :=
  sInf {j | ∃ n : Nat, answers n ≠ .ok false ∧ j = n + 1}

section

variable {answers : Nat → Except BenchError Bool}

theorem deciding_of_first {n : Nat} (hbefore : ∀ i < n, answers i = .ok false)
    (hn : answers n ≠ .ok false) : deciding answers = n + 1 := by
  apply le_antisymm
  · exact sInf_le ⟨n, hn, rfl⟩
  · refine le_sInf ?_
    rintro _ ⟨i, hi, rfl⟩
    have hle : n ≤ i := Nat.not_lt.1 fun hlt => hi (hbefore i hlt)
    exact_mod_cast Nat.succ_le_succ hle

theorem lt_deciding_of_silent {m : Nat} (h : ∀ i < m, answers i = .ok false) :
    (m : ℕ∞) < deciding answers := by
  refine lt_of_lt_of_le (b := (m + 1 : ℕ∞)) ?_ (le_sInf ?_)
  · exact_mod_cast Nat.lt_succ_self m
  · rintro _ ⟨i, hi, rfl⟩
    have hle : m ≤ i := Nat.not_lt.1 fun hlt => hi (h i hlt)
    exact_mod_cast Nat.succ_le_succ hle

theorem exists_first_or_silent (answers : Nat → Except BenchError Bool) (m : Nat) :
    (∃ n < m, (∀ i < n, answers i = .ok false) ∧ answers n ≠ .ok false) ∨
      ∀ i < m, answers i = .ok false := by
  induction m with
  | zero => exact .inr fun i hi => absurd hi (Nat.not_lt_zero i)
  | succ m ih =>
    rcases ih with ⟨n, hn, hfirst⟩ | hsilent
    · exact .inl ⟨n, Nat.lt_succ_of_lt hn, hfirst⟩
    by_cases hm : answers m = .ok false
    · refine .inr fun i hi => ?_
      rcases Nat.lt_succ_iff_lt_or_eq.1 hi with hlt | rfl
      · exact hsilent i hlt
      · exact hm
    · exact .inl ⟨m, Nat.lt_succ_self m, hsilent, hm⟩

end

section

variable {σ : Type}

def stateAfter (condition : ExceptT BenchError (StateM σ) Bool) (s : σ) : Nat → σ
  | 0 => s
  | n + 1 => stateAfter condition (condition.run.run s).2 n

def answersOf (condition : ExceptT BenchError (StateM σ) Bool) (s : σ) (n : Nat) :
    Except BenchError Bool :=
  (condition.run.run (stateAfter condition s n)).1

def metered (condition : ExceptT BenchError (StateM σ) Bool) :
    ExceptT BenchError (StateM (σ × Nat)) Bool :=
  ExceptT.mk fun s => ((condition.run.run s.1).1, (condition.run.run s.1).2, s.2 + 1)

section

variable (condition : ExceptT BenchError (StateM σ) Bool)

theorem stateAfter_metered (s : σ) (count n : Nat) :
    stateAfter (metered condition) (s, count) n = (stateAfter condition s n, count + n) := by
  induction n generalizing s count with
  | zero => rfl
  | succ n ih =>
    rw [stateAfter, stateAfter, ← Nat.succ_add_eq_add_succ]
    exact ih _ _

theorem answersOf_metered (s : σ) (count : Nat) :
    answersOf (metered condition) (s, count) = answersOf condition s := by
  funext n
  rw [answersOf, stateAfter_metered]
  rfl

end

section

variable {condition : ExceptT BenchError (StateM σ) Bool}

theorem run_pollFrom_decided (failed left : Nat) (s : σ)
    (h : (condition.run.run s).1 ≠ .ok false) :
    (pollFrom condition failed (left + 1)).run.run s =
      ((condition.run.run s).1.map fun _ => failed, (condition.run.run s).2) := by
  rw [pollFrom, run_bind]
  rcases hs : condition.run.run s with ⟨e | found, t⟩
  · rfl
  · cases found with
    | true => rfl
    | false => exact absurd (congrArg Prod.fst hs) h

theorem run_pollFrom_undecided (failed left : Nat) (s : σ)
    (h : (condition.run.run s).1 = .ok false) :
    (pollFrom condition failed (left + 1)).run.run s =
      (pollFrom condition (failed + 1) left).run.run (condition.run.run s).2 := by
  rw [pollFrom, run_bind]
  rcases hs : condition.run.run s with ⟨answer, t⟩
  rw [hs] at h
  cases h
  rfl

theorem run_pollFrom_first {n left : Nat} (hn : n < left) {s : σ}
    (hbefore : ∀ i < n, answersOf condition s i = .ok false)
    (hfirst : answersOf condition s n ≠ .ok false) (failed : Nat) :
    (pollFrom condition failed left).run.run s =
      ((answersOf condition s n).map fun _ => failed + n, stateAfter condition s (n + 1)) := by
  induction n generalizing left s failed with
  | zero =>
    obtain ⟨left, rfl⟩ : ∃ l, left = l + 1 := ⟨left - 1, by omega⟩
    exact run_pollFrom_decided failed left s hfirst
  | succ n ih =>
    obtain ⟨left, rfl⟩ : ∃ l, left = l + 1 := ⟨left - 1, by omega⟩
    rw [run_pollFrom_undecided failed left s (hbefore 0 (Nat.succ_pos n)),
      ih (Nat.lt_of_succ_lt_succ hn) (fun i hi => hbefore (i + 1) (Nat.succ_lt_succ hi)) hfirst,
      Nat.succ_add_eq_add_succ]
    rfl

theorem run_pollFrom_silent {left : Nat} {s : σ}
    (h : ∀ i < left, answersOf condition s i = .ok false) (failed : Nat) :
    (pollFrom condition failed left).run.run s =
      (.error (.hang (failed + left)), stateAfter condition s left) := by
  induction left generalizing s failed with
  | zero => rfl
  | succ left ih =>
    rw [run_pollFrom_undecided failed left s (h 0 (Nat.succ_pos left)),
      ih fun i hi => h (i + 1) (Nat.succ_lt_succ hi), Nat.succ_add_eq_add_succ]
    rfl

end

structure Verdict (answers : Nat → Except BenchError Bool) (limit calls : Nat)
    (verdict : Except BenchError Nat) : Prop where
  calls_eq : (calls : ℕ∞) = min (deciding answers) limit
  found : ∀ n : Nat, deciding answers = n + 1 → n + 1 ≤ limit → answers n = .ok true →
    verdict = .ok n
  failed : ∀ (n : Nat) (e : BenchError), deciding answers = n + 1 → n + 1 ≤ limit →
    answers n = .error e → verdict = .error e
  hung : limit < deciding answers → verdict = .error (.hang limit)

theorem verdict_first {answers : Nat → Except BenchError Bool} {n limit : Nat} (hn : n < limit)
    (hbefore : ∀ i < n, answers i = .ok false) (hfirst : answers n ≠ .ok false) :
    Verdict answers limit (n + 1) ((answers n).map fun _ => n) := by
  have hdeciding := deciding_of_first hbefore hfirst
  have hwithin : (n + 1 : ℕ∞) ≤ limit := by exact_mod_cast hn
  have hsame : ∀ i : Nat, deciding answers = i + 1 → i = n := by
    intro i hi
    have hnext : ((i + 1 : Nat) : ℕ∞) = (n + 1 : Nat) := hi.symm.trans hdeciding
    exact Nat.succ.inj (Nat.cast_injective hnext)
  refine ⟨?_, ?_, ?_, ?_⟩
  · rw [hdeciding, min_eq_left hwithin]
    rfl
  · intro i hi _ htrue
    obtain rfl := hsame i hi
    rw [htrue]
    rfl
  · intro i e hi _ herror
    obtain rfl := hsame i hi
    rw [herror]
    rfl
  · intro hlate
    rw [hdeciding] at hlate
    exact absurd hwithin (not_le_of_gt hlate)

theorem verdict_silent {answers : Nat → Except BenchError Bool} {limit : Nat}
    (h : ∀ i < limit, answers i = .ok false) :
    Verdict answers limit limit (.error (.hang limit)) := by
  have hlate := lt_deciding_of_silent h
  have hnever : ∀ n : Nat, deciding answers = n + 1 → n + 1 ≤ limit → False := by
    intro n hn hle
    rw [hn] at hlate
    exact absurd hle (Nat.not_le_of_gt (by exact_mod_cast hlate))
  refine ⟨(min_eq_right hlate.le).symm, ?_, ?_, fun _ => rfl⟩
  · exact fun n hn hle _ => (hnever n hn hle).elim
  · exact fun n e hn hle _ => (hnever n hn hle).elim

theorem pollUntil_verdict (limit : Nat) (condition : ExceptT BenchError (StateM σ) Bool) (s : σ) :
    ∃ (calls : Nat) (verdict : Except BenchError Nat),
      (pollUntil limit (metered condition)).run.run (s, 0) =
          (verdict, stateAfter condition s calls, calls) ∧
        (pollUntil limit condition).run.run s = (verdict, stateAfter condition s calls) ∧
        Verdict (answersOf condition s) (max limit 1) calls verdict := by
  have hanswers := answersOf_metered condition s 0
  have hstate (n : Nat) :
      stateAfter (metered condition) (s, 0) n = (stateAfter condition s n, n) := by
    rw [stateAfter_metered, Nat.zero_add]
  simp only [pollUntil]
  rcases exists_first_or_silent (answersOf condition s) (max limit 1) with
    ⟨n, hn, hbefore, hfirst⟩ | hsilent
  · refine ⟨n + 1, (answersOf condition s n).map fun _ => n, ?_, ?_,
      verdict_first hn hbefore hfirst⟩
    · rw [run_pollFrom_first hn (by rwa [hanswers]) (by rwa [hanswers]), hanswers, hstate,
        Nat.zero_add]
    · rw [run_pollFrom_first hn hbefore hfirst, Nat.zero_add]
  · refine ⟨max limit 1, .error (.hang (max limit 1)), ?_, ?_, verdict_silent hsilent⟩
    · rw [run_pollFrom_silent (by rwa [hanswers]), hstate, Nat.zero_add]
    · rw [run_pollFrom_silent hsilent, Nat.zero_add]

/-- The last poll that is allowed still counts. -/
example : (pollUntil 2 (ExceptT.mk fun n : Nat => (.ok (n == 1), n + 1))).run.run 0 = (.ok 1, 2) :=
  rfl

end

end AfuBench
