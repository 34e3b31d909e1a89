import AfuBench.Bench.Poll
import AfuBench.Proofs.AccessLog
import AfuBench.Proofs.Performs

namespace AfuBench

def Session.log {σ : Type} (s : Session (Recorded σ)) : List Access :=
  s.device.accesses.toList

namespace Bench

variable {σ α β γ : Type}

/-- On every device, the accesses that the program adds to the record follow the plan. -/
def Keeps (p : Bench (Recorded σ) α) (plan : Plan) (post : α → List Access → Prop)
    (stops : BenchError → Plan → Prop) : Prop :=
  ∀ s, ∃ log, (p.run.run s).2.log = s.log ++ log ∧ Follows plan post stops (p.run.run s).1 log

variable {p : Bench (Recorded σ) α} {k : α → Bench (Recorded σ) β} {plan more : Plan}
  {post : α → List Access → Prop} {after : β → List Access → Prop}
  {stops : BenchError → Plan → Prop}

theorem Keeps.mono {post' : α → List Access → Prop} {stops' : BenchError → Plan → Prop}
    (h : Keeps p plan post stops) (hpost : ∀ x log, post x log → post' x log)
    (hstops : ∀ e tried, stops e tried → stops' e tried) : Keeps p plan post' stops' := by
  intro s
  obtain ⟨log, hlog, hfollows⟩ := h s
  exact ⟨log, hlog, hfollows.mono hpost hstops⟩

theorem Keeps.exec (h : Keeps p plan post stops) {d : σ} {answer : Except BenchError α}
    {session : Session (Recorded σ)} (hrun : p.exec (Recorded.start d) = (answer, session)) :
    Follows plan post stops answer session.log := by
  obtain ⟨log, hlog, hfollows⟩ := h ⟨Recorded.start d, .empty⟩
  change (p.exec (Recorded.start d)).2.log = log at hlog
  change Follows plan post stops (p.exec (Recorded.start d)).1 log at hfollows
  rw [hrun] at hlog hfollows
  exact hlog ▸ hfollows

theorem keeps_of_run_eq {answer : Except BenchError α} {log : List Access}
    (hrun : ∀ s, (p.run.run s).1 = answer ∧ (p.run.run s).2.log = s.log ++ log)
    (h : Follows plan post stops answer log) : Keeps p plan post stops :=
  fun s => ⟨log, (hrun s).2, (hrun s).1 ▸ h⟩

theorem keeps_pure {x : α} (h : post x []) : Keeps (σ := σ) (pure x) [] post stops :=
  keeps_of_run_eq (fun s => ⟨rfl, (List.append_nil s.log).symm⟩) (.done granted_nil rfl h)

theorem keeps_throw {e : BenchError} (h : stops e []) :
    Keeps (σ := σ) (α := α) (throw e) plan post stops :=
  keeps_of_run_eq (fun s => ⟨rfl, (List.append_nil s.log).symm⟩)
    (.stopped granted_nil List.nil_prefix h)

theorem Keeps.bind (hp : Keeps p plan post stops)
    (hk : ∀ x log, post x log → Keeps (k x) more (fun y rest => after y (log ++ rest))
      fun e tried => stops e (plan ++ tried)) :
    Keeps (p >>= k) (plan ++ more) after stops := by
  intro s
  obtain ⟨log, hlog, hfollows⟩ := hp s
  rw [run_bind]
  generalize p.run.run s = result at hlog hfollows ⊢
  obtain ⟨answer, t⟩ := result
  cases hfollows with
  | @done x _ granted all holds =>
    obtain ⟨rest, hrest, hfollows⟩ := hk x log holds t
    refine ⟨log ++ rest, ?_, .prepend granted all hfollows⟩
    rw [← List.append_assoc, ← hlog]
    exact hrest
  | stopped granted tried allowed =>
    exact ⟨log, hlog, .stopped granted (tried.trans (List.prefix_append _ _)) allowed⟩
  | refused granted failed tried =>
    exact ⟨_, hlog, .refused granted failed (tried.trans (List.prefix_append _ _))⟩

theorem Keeps.tryCatch {handler : BenchError → Bench (Recorded σ) α}
    {stops' : BenchError → Plan → Prop} (hp : Keeps p [] post stops')
    (haccess : ∀ e, handler (.access e) = throw (.access e))
    (hstop : ∀ e log, stops' e [] → Keeps (handler e) [] (fun x rest => post x (log ++ rest)) stops) :
    Keeps (tryCatch p handler) [] post stops := by
  intro s
  obtain ⟨log, hlog, hfollows⟩ := hp s
  rw [run_tryCatch]
  generalize p.run.run s = result at hlog hfollows ⊢
  obtain ⟨answer, t⟩ := result
  cases hfollows with
  | done granted all holds => exact ⟨log, hlog, .done granted all holds⟩
  | refused granted failed tried =>
    simp only [haccess]
    exact ⟨_, hlog, .refused granted failed tried⟩
  | @stopped e _ granted tried allowed =>
    have hnone : attempts log = [] := List.prefix_nil.1 tried
    obtain ⟨rest, hrest, hfollows⟩ := hstop e log (hnone ▸ allowed) t
    have hwhole : Follows ([] ++ []) post stops _ (log ++ rest) := .prepend granted hnone hfollows
    refine ⟨log ++ rest, ?_, hwhole⟩
    rw [← List.append_assoc, ← hlog]
    exact hrest

theorem keeps_print (text : String) :
    Keeps (σ := σ) (print text) [] (fun _ log => log = []) stops :=
  keeps_of_run_eq (fun s => ⟨rfl, (List.append_nil s.log).symm⟩) (.done granted_nil rfl rfl)

theorem keeps_printLine (text : String) :
    Keeps (σ := σ) (printLine text) [] (fun _ log => log = []) stops :=
  keeps_of_run_eq (fun s => ⟨rfl, (List.append_nil s.log).symm⟩) (.done granted_nil rfl rfl)

theorem Keeps.after_silent {q : Bench (Recorded σ) Unit} {k : Unit → Bench (Recorded σ) β}
    (hq : Keeps q [] (fun _ log => log = []) stops) (h : Keeps (k ()) plan after stops) :
    Keeps (q >>= k) plan after stops := by
  refine Keeps.bind hq ?_
  rintro _ _ rfl
  exact h

theorem Keeps.after_print {text : String} {k : Unit → Bench (Recorded σ) β}
    (h : Keeps (k ()) plan after stops) : Keeps (print text >>= k) plan after stops :=
  .after_silent (keeps_print text) h

theorem Keeps.after_printLine {text : String} {k : Unit → Bench (Recorded σ) β}
    (h : Keeps (k ()) plan after stops) : Keeps (printLine text >>= k) plan after stops :=
  .after_silent (keeps_printLine text) h

theorem keeps_printLines (lines : List String) :
    Keeps (σ := σ) (lines.forM printLine) [] (fun _ log => log = []) stops := by
  induction lines with
  | nil => exact keeps_pure rfl
  | cons line lines ih => exact Keeps.after_printLine ih

theorem keeps_pollFrom {quiet : List Access → Prop} {condition : Bench (Recorded σ) Bool}
    (hnil : quiet []) (happend : ∀ log rest, quiet log → quiet rest → quiet (log ++ rest))
    (hcondition : ∀ stops, Keeps condition [] (fun _ log => quiet log) stops) (failed left : Nat) :
    Keeps (pollFrom condition failed left) [] (fun _ log => quiet log)
      fun e _ => ∃ polls, e = .hang polls := by
  induction left generalizing failed with
  | zero => exact keeps_throw ⟨failed, rfl⟩
  | succ left ih =>
    refine Keeps.bind (hcondition _) ?_
    intro found log hlog
    cases found with
    | true => exact keeps_pure (happend log [] hlog hnil)
    | false => exact (ih _).mono (fun _ rest => happend log rest hlog) fun _ _ h => h

section

variable {xs : List γ} {writes : γ → Plan}

theorem keeps_foldlM {f : β → γ → Bench (Recorded σ) β}
    {round : γ → β → β → List Access → Prop} {whole : List γ → β → β → List Access → Prop}
    {fails : γ → BenchError → Plan → Prop}
    (h : ∀ x y, Keeps (f y x) (writes x) (round x y) (fails x)) (hnil : ∀ y, whole [] y y [])
    (hcons : ∀ x xs y y' z log rest, round x y y' log → whole xs y' z rest →
      whole (x :: xs) y z (log ++ rest)) (y : β) :
    Keeps (xs.foldlM f y) (xs.flatMap writes) (whole xs y) fun e tried =>
      ∃ before x after rest, xs = before ++ x :: after ∧
        tried = before.flatMap writes ++ rest ∧ fails x e rest := by
  induction xs generalizing y with
  | nil => exact keeps_pure (hnil y)
  | cons x xs ih =>
    rw [List.foldlM_cons, List.flatMap_cons]
    refine Keeps.bind ((h x y).mono (fun _ _ hround => hround) ?_) ?_
    · intro e tried hfails
      exact ⟨[], x, xs, tried, rfl, rfl, hfails⟩
    · intro y' log hround
      refine (ih y').mono (fun z rest => hcons x xs y y' z log rest hround) ?_
      rintro e tried ⟨before, z, after, rest, rfl, rfl, hfails⟩
      refine ⟨x :: before, z, after, rest, rfl, ?_, hfails⟩
      rw [List.flatMap_cons, List.append_assoc]

end

abbrev Plans (p : Bench (Recorded σ) α) (plan : Plan) : Prop :=
  Keeps p plan (fun _ _ => True) fun _ _ => True

theorem plans_pure (x : α) : Plans (σ := σ) (pure x) [] := keeps_pure trivial

theorem Plans.bind (hp : Plans p plan) (hk : ∀ x, Plans (k x) more) :
    Plans (p >>= k) (plan ++ more) :=
  Keeps.bind hp fun x _ _ => hk x

section

variable {xs : List γ} {writes : γ → Plan}

theorem Plans.forM {f : γ → Bench (Recorded σ) PUnit} (h : ∀ x ∈ xs, Plans (f x) (writes x)) :
    Plans (xs.forM f) (xs.flatMap writes) := by
  induction xs with
  | nil => exact plans_pure _
  | cons x xs ih =>
    rw [List.flatMap_cons]
    exact (h x List.mem_cons_self).bind fun _ => ih fun y hy => h y (List.mem_cons_of_mem x hy)

theorem Plans.foldlM {f : β → γ → Bench (Recorded σ) β} (h : ∀ y x, Plans (f y x) (writes x))
    (y : β) : Plans (xs.foldlM f y) (xs.flatMap writes) := by
  induction xs generalizing y with
  | nil => exact plans_pure y
  | cons x xs ih =>
    rw [List.foldlM_cons, List.flatMap_cons]
    exact (h y x).bind ih

end

abbrev OnlyReads (p : Bench (Recorded σ) α) : Prop :=
  Plans p []

theorem OnlyReads.bind (hp : OnlyReads p) (hk : ∀ x, OnlyReads (k x)) : OnlyReads (p >>= k) :=
  Plans.bind hp hk

theorem OnlyReads.mapM {f : γ → Bench (Recorded σ) β} {xs : List γ}
    (h : ∀ x ∈ xs, OnlyReads (f x)) : OnlyReads (xs.mapM f) := by
  induction xs with
  | nil => exact plans_pure _
  | cons x xs ih =>
    rw [List.mapM_cons]
    refine (h x List.mem_cons_self).bind fun _ => ?_
    exact (ih fun y hy => h y (List.mem_cons_of_mem x hy)).bind fun _ => plans_pure _

theorem onlyReads_pollFrom {condition : Bench (Recorded σ) Bool}
    (h : ∀ stops, Keeps condition [] (fun _ _ => True) stops) (failed left : Nat) :
    OnlyReads (pollFrom condition failed left) :=
  (keeps_pollFrom trivial (fun _ _ _ _ => trivial) h failed left).mono (fun _ _ h => h)
    fun _ _ _ => trivial

theorem keeps_access {f : Recorded σ → Except AccessError α × Recorded σ}
    (entry : Except AccessError α → Access)
    (hentry : ∀ r, (f r).2.accesses = r.accesses.push (entry (f r).1))
    (hok : ∀ x, (entry (.ok x)).error? = none ∧ attempts [entry (.ok x)] = plan)
    (herror : ∀ e, (entry (.error e)).error? = some e ∧ attempts [entry (.error e)] <+: plan) :
    Keeps (access f) plan (fun x log => log = [entry (.ok x)]) stops := by
  intro s
  refine ⟨[entry (f s.device).1], ?_, ?_⟩
  · change (f s.device).2.accesses.toList = s.device.accesses.toList ++ _
    rw [hentry, Array.toList_push]
  · change Follows _ _ _ ((f s.device).1.mapError BenchError.access) _
    cases (f s.device).1 with
    | ok x =>
      obtain ⟨granted, all⟩ := hok x
      exact .done (fun _ h => List.mem_singleton.1 h ▸ granted) all rfl
    | error e => exact .refused_first (herror e).1 (herror e).2

variable [Bus σ]

theorem keeps_read (index : Nat) :
    Keeps (σ := σ) (read index) [] (fun x log => log = [.read (8 * index) (.ok x)]) stops :=
  keeps_access (.read (8 * index)) (fun _ => rfl) (fun _ => ⟨rfl, rfl⟩)
    fun _ => ⟨rfl, List.prefix_refl _⟩

theorem keeps_write (index : Nat) (value : UInt64) :
    Keeps (σ := σ) (write index value) [(8 * index, value)]
      (fun _ log => log = [.write (8 * index) value (.ok ())]) stops :=
  keeps_access (.write (8 * index) value) (fun _ => rfl) (fun _ => ⟨rfl, rfl⟩)
    fun _ => ⟨rfl, List.prefix_refl _⟩

theorem Keeps.after_read {index : Nat} {k : UInt64 → Bench (Recorded σ) β}
    (h : ∀ x, Keeps (k x) plan (fun y rest => after y (.read (8 * index) (.ok x) :: rest)) stops) :
    Keeps (read index >>= k) plan after stops := by
  refine Keeps.bind (keeps_read index) ?_
  rintro x _ rfl
  exact h x

theorem Keeps.after_write {index : Nat} {value : UInt64} {k : Unit → Bench (Recorded σ) β}
    (h : Keeps (k ()) plan (fun y rest => after y (.write (8 * index) value (.ok ()) :: rest))
      fun e tried => stops e ((8 * index, value) :: tried)) :
    Keeps (write index value >>= k) ((8 * index, value) :: plan) after stops := by
  refine Keeps.bind (keeps_write index value) ?_
  rintro _ _ rfl
  exact h

def setupWrites (eng : Nat) (reads writes : Burst) (seed : UInt64) : Plan :=
  [(8 * Register.engineIndex eng Register.readTraffic, reads.toWord),
    (8 * Register.engineIndex eng Register.writeTraffic, writes.toWord),
    (8 * Register.engineIndex eng Register.seed, seed)]

theorem engineOffset_ne {eng reg index : Nat} (heng : eng < Register.maxEngines)
    (hreg : reg < Register.perEngine) (hindex : index < Register.engineBase) :
    8 * Register.engineIndex eng reg ≠ 8 * index := by
  rw [Register.engineIndex_eq heng hreg]
  change index < 0x400 at hindex
  omega

theorem readEngine_eq {eng reg : Nat} (heng : eng < Register.maxEngines)
    (hreg : reg < Register.perEngine) :
    readEngine (σ := σ) eng reg = read (Register.engineIndex eng reg) :=
  if_neg (not_or.2 ⟨Nat.not_le_of_gt heng, Nat.not_le_of_gt hreg⟩)

theorem writeEngine_eq {eng reg : Nat} (heng : eng < Register.maxEngines)
    (hreg : reg < Register.perEngine) (value : UInt64) :
    writeEngine (σ := σ) eng reg value = write (Register.engineIndex eng reg) value :=
  if_neg (not_or.2 ⟨Nat.not_le_of_gt heng, Nat.not_le_of_gt hreg⟩)

end Bench

end AfuBench
