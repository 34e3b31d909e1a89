import AfuBench.Bench.Error
import AfuBench.Bus.Recorded
/-!
The record of the accesses to a device that can answer anything and refuse anything, held against a
plan of writes: the writes of the plan are tried in their order, up to the first refused access.
-/

namespace AfuBench

abbrev Plan := List (Nat × UInt64)

namespace Access

def attempted? : Access → Option (Nat × UInt64)
  | .read _ _ => none
  | .write offset value _ => some (offset, value)

def error? : Access → Option AccessError
  | .read _ (.error e) => some e
  | .write _ _ (.error e) => some e
  | _ => none

def answer? (offset : Nat) : Access → Option UInt64
  | .read o (.ok x) => if o = offset then some x else none
  | _ => none

theorem accepted?_of_error?_eq_none {a : Access} (h : a.error? = none) :
    a.accepted? = a.attempted? := by
  cases a with
  | read offset answer => rfl
  | write offset value answer =>
    cases answer with
    | ok _ => rfl
    | error e => cases h

end Access

def attempts (log : List Access) : Plan :=
  log.filterMap Access.attempted?

def accepts (log : List Access) : Plan :=
  log.filterMap Access.accepted?

def answers (offset : Nat) (log : List Access) : List UInt64 :=
  log.filterMap (Access.answer? offset)

def Granted (log : List Access) : Prop :=
  ∀ a ∈ log, a.error? = none

theorem attempts_append (before after : List Access) :
    attempts (before ++ after) = attempts before ++ attempts after :=
  List.filterMap_append

theorem accepts_append (before after : List Access) :
    accepts (before ++ after) = accepts before ++ accepts after :=
  List.filterMap_append

theorem answers_append (offset : Nat) (before after : List Access) :
    answers offset (before ++ after) = answers offset before ++ answers offset after :=
  List.filterMap_append

theorem granted_nil : Granted [] := fun _ h => absurd h List.not_mem_nil

theorem granted_append {before after : List Access} :
    Granted (before ++ after) ↔ Granted before ∧ Granted after :=
  List.forall_mem_append

theorem accepts_eq_attempts {log : List Access} (h : Granted log) : accepts log = attempts log := by
  induction log with
  | nil => rfl
  | cons a log ih =>
    rw [accepts, attempts, List.filterMap_cons, List.filterMap_cons,
      Access.accepted?_of_error?_eq_none (h a List.mem_cons_self)]
    rw [← accepts, ← attempts, ih fun b hb => h b (List.mem_cons_of_mem a hb)]

section

variable {α : Type} {plan : Plan} {post : α → List Access → Prop} {stops : BenchError → Plan → Prop}
  {answer : Except BenchError α} {log : List Access}

/-- What the accesses of a program say about its answer. It comes to an end with all writes done, or
stops by itself where `stops` allows it, or is stopped by a refused access, the last one it makes. -/
inductive Follows (plan : Plan) (post : α → List Access → Prop)
    (stops : BenchError → Plan → Prop) : Except BenchError α → List Access → Prop
  | done {x log} (granted : Granted log) (all : attempts log = plan) (holds : post x log) :
      Follows plan post stops (.ok x) log
  | stopped {e log} (granted : Granted log) (tried : attempts log <+: plan)
      (allowed : stops e (attempts log)) : Follows plan post stops (.error e) log
  | refused {e log last} (granted : Granted log) (failed : last.error? = some e)
      (tried : attempts (log ++ [last]) <+: plan) :
      Follows plan post stops (.error (.access e)) (log ++ [last])

namespace Follows

theorem mono {post' : α → List Access → Prop} {stops' : BenchError → Plan → Prop}
    (h : Follows plan post stops answer log) (hpost : ∀ x log, post x log → post' x log)
    (hstops : ∀ e tried, stops e tried → stops' e tried) : Follows plan post' stops' answer log := by
  cases h with
  | done granted all holds => exact .done granted all (hpost _ _ holds)
  | stopped granted tried allowed => exact .stopped granted tried (hstops _ _ allowed)
  | refused granted failed tried => exact .refused granted failed tried

theorem prepend {more : Plan} {rest : List Access} (granted : Granted log)
    (all : attempts log = plan)
    (h : Follows more (fun x rest => post x (log ++ rest)) (fun e tried => stops e (plan ++ tried))
      answer rest) :
    Follows (plan ++ more) post stops answer (log ++ rest) := by
  cases h with
  | done granted' all' holds =>
    exact .done (granted_append.2 ⟨granted, granted'⟩) (by rw [attempts_append, all, all']) holds
  | stopped granted' tried allowed =>
    refine .stopped (granted_append.2 ⟨granted, granted'⟩) ?_ ?_
    · rw [attempts_append, all]
      exact (List.prefix_append_right_inj _).2 tried
    · rw [attempts_append, all]
      exact allowed
  | refused granted' failed tried =>
    rw [← List.append_assoc]
    refine .refused (granted_append.2 ⟨granted, granted'⟩) failed ?_
    rw [List.append_assoc, attempts_append, all]
    exact (List.prefix_append_right_inj _).2 tried

theorem refused_first {e : AccessError} {a : Access} (failed : a.error? = some e)
    (tried : attempts [a] <+: plan) : Follows plan post stops (.error (.access e)) [a] :=
  @refused α plan post stops e [] a granted_nil failed tried

theorem post_of_ok {x : α} (h : Follows plan post stops (.ok x) log) : post x log := by
  cases h with
  | done _ _ holds => exact holds

theorem stops_of_granted {e : BenchError} (h : Follows plan post stops (.error e) log)
    (granted : Granted log) : stops e (attempts log) := by
  cases h with
  | stopped _ _ allowed => exact allowed
  | refused _ failed _ =>
    rw [granted _ (List.mem_append_right _ List.mem_cons_self)] at failed
    cases failed

theorem attempts_prefix (h : Follows plan post stops answer log) : attempts log <+: plan := by
  cases h with
  | done _ all _ => exact all ▸ List.prefix_refl _
  | stopped _ tried _ => exact tried
  | refused _ _ tried => exact tried

theorem granted_before (h : Follows plan post stops answer log) {before after : List Access}
    {a : Access} (hlog : log = before ++ a :: after) : Granted before := by
  cases h with
  | done granted _ _ => exact (granted_append.1 (hlog ▸ granted)).1
  | stopped granted _ _ => exact (granted_append.1 (hlog ▸ granted)).1
  | @refused _ most last granted _ _ =>
    have hlength := congrArg List.length hlog
    simp only [List.length_append, List.length_cons, List.length_nil] at hlength
    have hfront : before <+: most ++ [last] := hlog ▸ List.prefix_append _ _
    obtain ⟨rest, hrest⟩ := List.prefix_of_prefix_length_le hfront (List.prefix_append most [last])
      (by omega)
    exact (granted_append.1 (hrest ▸ granted)).1

theorem write_prefix (h : Follows plan post stops answer log) {before after : List Access}
    {offset : Nat} {value : UInt64} {result : Except AccessError Unit}
    (hlog : log = before ++ .write offset value result :: after) :
    accepts before ++ [(offset, value)] <+: plan := by
  have hall := h.attempts_prefix
  rw [accepts_eq_attempts (h.granted_before hlog)]
  rw [hlog, attempts_append] at hall
  refine List.IsPrefix.trans ?_ hall
  exact ⟨attempts after, by rw [List.append_assoc]; rfl⟩

theorem accepts_prefix (h : Follows plan post stops answer log) : accepts log <+: plan := by
  cases h with
  | done granted all _ => exact accepts_eq_attempts granted ▸ all ▸ List.prefix_refl _
  | stopped granted tried _ => exact accepts_eq_attempts granted ▸ tried
  | @refused _ most last granted _ tried =>
    have hmost : accepts (most ++ [last]) <+: attempts (most ++ [last]) := by
      rw [accepts_append, attempts_append, accepts_eq_attempts granted]
      refine (List.prefix_append_right_inj _).2 ?_
      rcases last with ⟨offset, _ | _⟩ | ⟨offset, value, _ | _⟩
      · exact List.prefix_refl _
      · exact List.prefix_refl _
      · exact List.nil_prefix
      · exact List.prefix_refl _
    exact hmost.trans tried

end Follows

end

end AfuBench
