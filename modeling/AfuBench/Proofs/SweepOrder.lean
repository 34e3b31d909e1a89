import AfuBench.Bench.LocalMemory
import AfuBench.Proofs.SweepProtocol

namespace AfuBench

namespace Bench

variable {σ α β : Type}

/-- Run from `s`, the program comes to the write `w` when the record is `before`. -/
def Reaches (p : Bench (Recorded σ) α) (s : Session (Recorded σ)) (before : List Access)
    (w : Nat × UInt64) : Prop :=
  s.log <+: before ∧
    ∃ result after, (p.run.run s).2.log = before ++ .write w.1 w.2 result :: after

def Extends (p : Bench (Recorded σ) α) : Prop :=
  ∀ s, s.log <+: (p.run.run s).2.log

variable {p : Bench (Recorded σ) α} {k : α → Bench (Recorded σ) β} {plan : Plan}
  {s : Session (Recorded σ)} {before : List Access} {w : Nat × UInt64}

theorem Keeps.extends {post : α → List Access → Prop} {stops : BenchError → Plan → Prop}
    (h : Keeps p plan post stops) : Extends p := by
  intro s
  obtain ⟨log, hlog, _⟩ := h s
  exact ⟨log, hlog.symm⟩

theorem extends_pure (x : α) : Extends (σ := σ) (pure x) := fun _ => List.prefix_refl _

theorem Extends.bind (hp : Extends p) (hk : ∀ x, Extends (k x)) : Extends (p >>= k) := by
  intro s
  have hfirst := hp s
  rw [run_bind]
  generalize p.run.run s = result at hfirst ⊢
  obtain ⟨answer, t⟩ := result
  cases answer with
  | ok x => exact hfirst.trans (hk x t)
  | error e => exact hfirst

theorem not_reaches_pure (x : α) : ¬ Reaches (σ := σ) (pure x) s before w := by
  rintro ⟨hbefore, result, after, hlog⟩
  have hlength := hbefore.length_le
  change s.log = _ at hlog
  rw [hlog, List.length_append, List.length_cons] at hlength
  omega

theorem reaches_of_exec {d : σ} {answer : Except BenchError α} {session : Session (Recorded σ)}
    (hrun : p.exec (Recorded.start d) = (answer, session)) {offset : Nat} {value : UInt64}
    {result : Except AccessError Unit} {after : List Access}
    (hlog : session.log = before ++ .write offset value result :: after) :
    Reaches p ⟨Recorded.start d, .empty⟩ before (offset, value) := by
  refine ⟨List.nil_prefix, result, after, ?_⟩
  change (p.exec (Recorded.start d)).2.log = _
  rw [hrun]
  exact hlog

theorem Reaches.bind (hk : ∀ x t, p.run.run s = (.ok x, t) → Extends (k x))
    (h : Reaches (p >>= k) s before w) :
    Reaches p s before w ∨ ∃ x t, p.run.run s = (.ok x, t) ∧ Reaches (k x) t before w := by
  obtain ⟨hbefore, result, after, hlog⟩ := h
  rw [run_bind] at hlog
  cases hrun : p.run.run s with
  | mk answer t =>
    rw [hrun] at hlog
    cases answer with
    | error e => exact .inl ⟨hbefore, result, after, by rw [hrun]; exact hlog⟩
    | ok x =>
      have hlog' : ((k x).run.run t).2.log = before ++ .write w.1 w.2 result :: after := hlog
      have hextends : t.log <+: before ++ .write w.1 w.2 result :: after := hlog' ▸ hk x t hrun t
      rcases List.prefix_or_prefix_of_prefix hextends (List.prefix_append _ _) with hlate | hearly
      · exact .inr ⟨x, t, rfl, hlate, result, after, hlog'⟩
      · obtain ⟨rest, hrest⟩ := hearly
        cases rest with
        | nil =>
          rw [List.append_nil] at hrest
          exact .inr ⟨x, t, rfl, hrest ▸ List.prefix_refl _, result, after, hlog'⟩
        | cons a rest =>
          rw [← hrest, List.prefix_append_right_inj, List.cons_prefix_cons] at hextends
          obtain ⟨rfl, _⟩ := hextends
          exact .inl ⟨hbefore, result, rest, by rw [hrun]; exact hrest.symm⟩

theorem Keeps.reaches {post : α → List Access → Prop} {stops : BenchError → Plan → Prop}
    (h : Keeps p plan post stops) (hw : Reaches p s before w) :
    ∃ log, before = s.log ++ log ∧ accepts log ++ [w] <+: plan := by
  obtain ⟨⟨log, rfl⟩, result, after, hlog⟩ := hw
  obtain ⟨all, hall, hfollows⟩ := h s
  rw [hlog, List.append_assoc, List.append_cancel_left_eq] at hall
  exact ⟨log, rfl, hfollows.write_prefix hall.symm⟩

theorem Keeps.reaches_mem {post : α → List Access → Prop} {stops : BenchError → Plan → Prop}
    (h : Keeps p plan post stops) (hw : Reaches p s before w) : w ∈ plan := by
  obtain ⟨log, _, hprefix⟩ := h.reaches hw
  exact hprefix.subset (List.mem_append_right _ List.mem_cons_self)

variable [Bus σ]

inductive Swept (limit : Nat) : Nat → List Capabilities → Session (Recorded σ) → List SweepStats →
    Session (Recorded σ) → Prop
  | nil {eng s} : Swept limit eng [] s [] s
  | cons {eng c caps s result t results u} (run : (sweep eng c limit).run.run s = (.ok result, t))
      (rest : Swept limit (eng + 1) caps t results u) :
      Swept limit eng (c :: caps) s (result :: results) u

def Clean (results : List SweepStats) : Prop :=
  ∀ result ∈ results, result.failed = 0

theorem clean_nil : Clean [] := fun _ h => absurd h List.not_mem_nil

theorem clean_cons {result : SweepStats} {results : List SweepStats} :
    Clean (result :: results) ↔ result.failed = 0 ∧ Clean results :=
  List.forall_mem_cons

variable {limit eng : Nat} {caps : List Capabilities} {stats final : SweepStats}
  {t : Session (Recorded σ)}

theorem Swept.prefix_log {results : List SweepStats} (h : Swept limit eng caps s results t)
    (hfew : eng + caps.length ≤ Register.maxEngines) : s.log <+: t.log := by
  induction h with
  | nil => exact List.prefix_refl _
  | @cons eng c caps s _ t _ _ hfirst _ ih =>
    rw [List.length_cons] at hfew
    have hsweep := (keeps_sweep (σ := σ) (show eng < _ by omega) c limit).extends s
    rw [hfirst] at hsweep
    exact hsweep.trans (ih (by omega))

theorem Swept.take {results : List SweepStats} (h : Swept limit eng caps s results t)
    (hclean : Clean results) (hfew : eng + caps.length ≤ Register.maxEngines) (n : Nat) :
    ∃ front u, Swept limit eng (caps.take n) s front u ∧ Clean front ∧ u.log <+: t.log := by
  induction h generalizing n with
  | nil =>
    rw [List.take_nil]
    exact ⟨[], _, .nil, clean_nil, List.prefix_refl _⟩
  | @cons eng c caps s result t results u hfirst hrest ih =>
    cases n with
    | zero => exact ⟨[], s, .nil, clean_nil, (Swept.cons hfirst hrest).prefix_log hfew⟩
    | succ n =>
      obtain ⟨hzero, hclean⟩ := clean_cons.1 hclean
      rw [List.length_cons] at hfew
      obtain ⟨front, v, hswept, hfront, hlog⟩ := ih hclean (by omega) n
      exact ⟨result :: front, v, .cons hfirst hswept, clean_cons.2 ⟨hzero, hfront⟩, hlog⟩

theorem extends_sweepEngines (hfew : eng + caps.length ≤ Register.maxEngines) :
    Extends (σ := σ) (sweepEngines limit eng caps stats) := by
  induction caps generalizing eng stats with
  | nil => exact extends_pure _
  | cons c caps ih =>
    rw [List.length_cons] at hfew
    refine (keeps_sweep (by omega) c limit).extends.bind fun result => ?_
    split
    · exact extends_pure _
    · exact ih (by omega)

theorem reaches_sweepEngines (hfew : eng + caps.length ≤ Register.maxEngines)
    (h : Reaches (sweepEngines limit eng caps stats) s before w) :
    ∃ front c back results t, caps = front ++ c :: back ∧ Swept limit eng front s results t ∧
      Clean results ∧ Reaches (sweep (eng + front.length) c limit) t before w := by
  induction caps generalizing eng stats s with
  | nil => exact absurd h (not_reaches_pure _)
  | cons c caps ih =>
    rw [List.length_cons] at hfew
    have hrest : eng + 1 + caps.length ≤ Register.maxEngines := by omega
    have hextends : ∀ result : SweepStats, Extends (σ := σ)
        (if 0 < result.failed then pure (stats.merge result, false)
          else sweepEngines limit (eng + 1) caps (stats.merge result)) := by
      intro result
      split
      · exact extends_pure _
      · exact extends_sweepEngines hrest
    rcases h.bind fun result _ _ => hextends result with hhere | ⟨result, t, hrun, hlater⟩
    · exact ⟨[], c, caps, [], s, rfl, .nil, clean_nil, hhere⟩
    · split at hlater
      case isTrue => exact absurd hlater (not_reaches_pure _)
      case isFalse hpassed =>
        obtain ⟨front, c', back, results, u, rfl, hswept, hclean, hreaches⟩ := ih hrest hlater
        refine ⟨c :: front, c', back, result :: results, u, rfl, .cons hrun hswept, ?_, ?_⟩
        · exact clean_cons.2 ⟨Nat.eq_zero_of_not_pos hpassed, hclean⟩
        · rw [List.length_cons, Nat.add_comm front.length 1, ← Nat.add_assoc]
          exact hreaches

theorem swept_of_sweepEngines
    (h : (sweepEngines limit eng caps stats).run.run s = (.ok (final, true), t)) :
    ∃ results, Swept limit eng caps s results t ∧ Clean results := by
  induction caps generalizing eng stats s with
  | nil =>
    obtain ⟨_, rfl⟩ := Prod.mk.inj h
    exact ⟨[], .nil, clean_nil⟩
  | cons c caps ih =>
    rw [sweepEngines, run_bind] at h
    generalize hrun : (sweep eng c limit).run.run s = outcome at h
    obtain ⟨_ | result, u⟩ := outcome
    · cases h
    · simp only at h
      split at h
      case isTrue => cases h
      case isFalse hpassed =>
        obtain ⟨results, hswept, hclean⟩ := ih h
        exact ⟨result :: results, .cons hrun hswept,
          clean_cons.2 ⟨Nat.eq_zero_of_not_pos hpassed, hclean⟩⟩

theorem sweepEngines_of_failed {front back : List Capabilities} {c : Capabilities}
    {results : List SweepStats} {last : SweepStats} {u : Session (Recorded σ)}
    (hswept : Swept limit eng front s results t) (hclean : Clean results)
    (hrun : (sweep (eng + front.length) c limit).run.run t = (.ok last, u))
    (hfailed : 0 < last.failed) (stats : SweepStats) :
    (sweepEngines limit eng (front ++ c :: back) stats).run.run s =
      (.ok ((results ++ [last]).foldl SweepStats.merge stats, false), u) := by
  induction hswept generalizing stats with
  | nil =>
    rw [List.length_nil, Nat.add_zero] at hrun
    rw [List.nil_append, sweepEngines, run_bind, hrun]
    simp only [if_pos hfailed]
    rfl
  | @cons eng c' front s result t' results t hfirst hrest ih =>
    obtain ⟨hzero, hclean⟩ := clean_cons.1 hclean
    rw [List.length_cons, Nat.add_comm front.length 1, ← Nat.add_assoc] at hrun
    rw [List.cons_append, sweepEngines, run_bind, hfirst]
    simp only [hzero, Nat.lt_irrefl, if_false]
    exact ih hclean hrun _

end Bench

end AfuBench
