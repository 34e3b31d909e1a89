import AfuBench.Proofs.WritePlan

namespace AfuBench

def Unprobed (log : List Access) : Prop :=
  ∀ offset answer, Access.read offset answer ∈ log → offset < 8 * Register.engineBase

theorem unprobed_nil : Unprobed [] :=
  fun _ _ h => absurd h List.not_mem_nil

theorem Unprobed.append {before after : List Access} (hbefore : Unprobed before)
    (hafter : Unprobed after) : Unprobed (before ++ after) := by
  intro offset answer h
  rcases List.mem_append.1 h with h | h
  · exact hbefore offset answer h
  · exact hafter offset answer h

theorem unprobed_read {index : Nat} (hindex : index < Register.engineBase)
    (answer : Except AccessError UInt64) : Unprobed [.read (8 * index) answer] := by
  intro offset answer h
  cases List.mem_singleton.1 h
  omega

theorem unprobed_write (offset : Nat) (value : UInt64) (answer : Except AccessError Unit) :
    Unprobed [.write offset value answer] := by
  intro o a h
  cases List.mem_singleton.1 h

theorem Unprobed.answers_eq_nil {log : List Access} (h : Unprobed log) {eng reg : Nat}
    (heng : eng < Register.maxEngines) (hreg : reg < Register.perEngine) :
    answers (8 * Register.engineIndex eng reg) log = [] := by
  refine List.filterMap_eq_nil_iff.2 fun a ha => ?_
  rcases a with ⟨offset, answer⟩ | ⟨offset, value, answer⟩
  · have hlt := h offset answer ha
    have hne : offset ≠ 8 * Register.engineIndex eng reg := by
      rw [Register.engineIndex_eq heng hreg]
      change offset < 8 * 0x400 at hlt
      omega
    cases answer with
    | error e => rfl
    | ok x => exact if_neg hne
  · rfl

namespace Bench

variable {σ α β γ : Type}

def Yields (p : Bench (Recorded σ) α) (outcome : Except BenchError α → List Access → Prop) : Prop :=
  ∀ s, ∃ log, (p.run.run s).2.log = s.log ++ log ∧ outcome (p.run.run s).1 log

variable {p : Bench (Recorded σ) α} {k : α → Bench (Recorded σ) β}
  {first other : Except BenchError α → List Access → Prop}
  {outcome : Except BenchError β → List Access → Prop}

theorem Keeps.yields {plan : Plan} {post : α → List Access → Prop} {stops : BenchError → Plan → Prop}
    (h : Keeps p plan post stops) : Yields p (Follows plan post stops) :=
  h

theorem Yields.exec (h : Yields p first) {d : σ} {answer : Except BenchError α}
    {session : Session (Recorded σ)} (hrun : p.exec (Recorded.start d) = (answer, session)) :
    first answer session.log := by
  obtain ⟨log, hlog, hfirst⟩ := h ⟨Recorded.start d, .empty⟩
  change (p.exec (Recorded.start d)).2.log = log at hlog
  change first (p.exec (Recorded.start d)).1 log at hfirst
  rw [hrun] at hlog hfirst
  exact hlog ▸ hfirst

theorem Yields.mono (h : Yields p first) (himp : ∀ answer log, first answer log → other answer log) :
    Yields p other := by
  intro s
  obtain ⟨log, hlog, hfirst⟩ := h s
  exact ⟨log, hlog, himp _ _ hfirst⟩

theorem Yields.and (h : Yields p first) (h' : Yields p other) :
    Yields p fun answer log => first answer log ∧ other answer log := by
  intro s
  obtain ⟨log, hlog, hfirst⟩ := h s
  obtain ⟨log', hlog', hother⟩ := h' s
  obtain rfl := List.append_cancel_left (hlog.symm.trans hlog')
  exact ⟨log, hlog, hfirst, hother⟩

theorem yields_pure {x : α} (h : first (.ok x) []) : Yields (σ := σ) (pure x) first :=
  fun s => ⟨[], (List.append_nil s.log).symm, h⟩

theorem yields_throw {e : BenchError} (h : first (.error e) []) :
    Yields (σ := σ) (throw e) first :=
  fun s => ⟨[], (List.append_nil s.log).symm, h⟩

theorem Yields.bind (hp : Yields p first)
    (hk : ∀ x log, first (.ok x) log → Yields (k x) fun answer rest => outcome answer (log ++ rest))
    (herror : ∀ e log, first (.error e) log → outcome (.error e) log) :
    Yields (p >>= k) outcome := by
  intro s
  obtain ⟨log, hlog, hfirst⟩ := hp s
  rw [run_bind]
  generalize p.run.run s = result at hlog hfirst ⊢
  obtain ⟨e | x, t⟩ := result
  · exact ⟨log, hlog, herror e log hfirst⟩
  · obtain ⟨rest, hrest, houtcome⟩ := hk x log hfirst t
    refine ⟨log ++ rest, ?_, houtcome⟩
    rw [← List.append_assoc, ← hlog]
    exact hrest

theorem Yields.after_printLine {text : String} {k : Unit → Bench (Recorded σ) β}
    (h : Yields (k ()) outcome) : Yields (printLine text >>= k) outcome := by
  intro s
  rw [run_bind]
  exact h _

theorem yields_access {f : Recorded σ → Except AccessError α × Recorded σ}
    (entry : Except AccessError α → Access)
    (hentry : ∀ r, (f r).2.accesses = r.accesses.push (entry (f r).1)) :
    Yields (access f) fun answer log => ∃ r, answer = r.mapError .access ∧ log = [entry r] := by
  intro s
  refine ⟨[entry (f s.device).1], ?_, _, rfl, rfl⟩
  change (f s.device).2.accesses.toList = s.device.accesses.toList ++ _
  rw [hentry, Array.toList_push]

theorem Yields.after_access {f : Recorded σ → Except AccessError α × Recorded σ}
    (entry : Except AccessError α → Access)
    (hentry : ∀ r, (f r).2.accesses = r.accesses.push (entry (f r).1))
    (hk : ∀ x, Yields (k x) fun answer rest => outcome answer (entry (.ok x) :: rest))
    (herror : ∀ e, outcome (.error (.access e)) [entry (.error e)]) :
    Yields (access f >>= k) outcome := by
  refine (yields_access entry hentry).bind ?_ ?_
  · rintro x _ ⟨e | y, hx, rfl⟩
    · cases hx
    · cases hx
      exact hk x
  · rintro e _ ⟨failure | y, he, rfl⟩
    · cases he
      exact herror failure
    · cases he

def Preliminary (p : Bench (Recorded σ) α) : Prop :=
  Yields p fun answer log => (∀ eng, answer ≠ .error (.noTraffic eng)) ∧ Unprobed log

theorem preliminary_pure (x : α) : Preliminary (σ := σ) (pure x) :=
  yields_pure ⟨nofun, unprobed_nil⟩

theorem preliminary_printLine (text : String) : Preliminary (σ := σ) (printLine text) :=
  fun s => ⟨[], (List.append_nil s.log).symm, nofun, unprobed_nil⟩

theorem Preliminary.bind (hp : Preliminary p) (hk : ∀ x, Preliminary (k x)) :
    Preliminary (p >>= k) := by
  refine Yields.bind hp ?_ ?_
  · intro x log hlog
    refine (hk x).mono ?_
    rintro answer rest ⟨hanswer, hrest⟩
    exact ⟨hanswer, hlog.2.append hrest⟩
  · intro e log hlog
    exact ⟨fun eng he => hlog.1 eng (Except.error.inj he ▸ rfl), hlog.2⟩

theorem preliminary_forM {f : γ → Bench (Recorded σ) PUnit} {xs : List γ}
    (h : ∀ x ∈ xs, Preliminary (f x)) : Preliminary (xs.forM f) := by
  induction xs with
  | nil => exact preliminary_pure _
  | cons x xs ih =>
    exact (h x List.mem_cons_self).bind fun _ => ih fun y hy => h y (List.mem_cons_of_mem x hy)

theorem preliminary_pollFrom {condition : Bench (Recorded σ) Bool} (h : Preliminary condition)
    (failed left : Nat) : Preliminary (pollFrom condition failed left) := by
  induction left generalizing failed with
  | zero => exact yields_throw ⟨nofun, unprobed_nil⟩
  | succ left ih =>
    refine h.bind fun found => ?_
    cases found with
    | true => exact preliminary_pure _
    | false => exact ih _

variable [Bus σ]

theorem Yields.after_read {index : Nat} {k : UInt64 → Bench (Recorded σ) β}
    (hk : ∀ x, Yields (k x) fun answer rest => outcome answer (.read (8 * index) (.ok x) :: rest))
    (herror : ∀ e, outcome (.error (.access e)) [.read (8 * index) (.error e)]) :
    Yields (read index >>= k) outcome :=
  .after_access (.read (8 * index)) (fun _ => rfl) hk herror

theorem Yields.after_write {index : Nat} {value : UInt64} {k : Unit → Bench (Recorded σ) β}
    (hk : Yields (k ()) fun answer rest =>
      outcome answer (.write (8 * index) value (.ok ()) :: rest))
    (herror : ∀ e, outcome (.error (.access e)) [.write (8 * index) value (.error e)]) :
    Yields (write index value >>= k) outcome :=
  .after_access (.write (8 * index) value) (fun _ => rfl) (fun _ => hk) herror

theorem yields_pollFrom {index : Nat} {condition : UInt64 → Bool} (failed left : Nat) :
    Yields (σ := σ) (pollFrom (do return condition (← read index)) failed left)
      fun answer log => ∀ polls, answer = .ok polls →
        ∃ before word, condition word = true ∧
          log = before ++ [.read (8 * index) (.ok word)] := by
  induction left generalizing failed with
  | zero => exact yields_throw nofun
  | succ left ih =>
    rw [pollFrom, bind_assoc]
    refine .after_read (fun word => ?_) nofun
    rw [pure_bind]
    cases hword : condition word with
    | true => exact yields_pure fun _ _ => ⟨[], word, hword, rfl⟩
    | false =>
      refine (ih (failed + 1)).mono ?_
      intro answer log hlog polls hpolls
      obtain ⟨before, last, hlast, rfl⟩ := hlog polls hpolls
      exact ⟨_ :: before, last, hlast, rfl⟩

theorem preliminary_read {index : Nat} (hindex : index < Register.engineBase) :
    Preliminary (σ := σ) (read index) := by
  refine (yields_access (.read (8 * index)) fun _ => rfl).mono ?_
  rintro _ _ ⟨r, rfl, rfl⟩
  refine ⟨?_, unprobed_read hindex r⟩
  cases r <;> exact nofun

theorem preliminary_write (index : Nat) (value : UInt64) :
    Preliminary (σ := σ) (write index value) := by
  refine (yields_access (.write (8 * index) value) fun _ => rfl).mono ?_
  rintro _ _ ⟨r, rfl, rfl⟩
  refine ⟨?_, unprobed_write _ _ r⟩
  cases r <;> exact nofun

end Bench

end AfuBench
