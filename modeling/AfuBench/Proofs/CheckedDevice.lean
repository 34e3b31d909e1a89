import AfuBench.Proofs.CheckedRun
import Mathlib.Data.List.Forall2

namespace AfuBench

section

variable {α β : Type} {R : α → β → Prop} {xs : List α} {ys : List β} {large : Nat → Prop}

end

namespace Afu

def startBehind (select : Nat → Bool) (done rest : List Engine) (a : Afu) : Option DataError × Afu :=
  let (engines, lines, err) := startFrom a.config select done.length rest
  (err, { a with engines := done ++ engines }.addLines lines)

section

variable {a : Afu} {select : Nat → Bool} {done rest : List Engine} {e e' : Engine}

end

def restart (mask : UInt64) (a : Afu) : Afu :=
  if a.enabled = 0 ∧ mask ≠ 0 then { a with cycles := 0 } else a

theorem restart_eq (mask : UInt64) (a : Afu) : ∃ cycles, a.restart mask = { a with cycles } := by
  rw [restart]
  split
  · exact ⟨0, rfl⟩
  · exact ⟨a.cycles, rfl⟩

def Outsizes (mask : UInt64) (a : Afu) (bytes : Nat) : Prop :=
  ∃ eng e, a.engines[eng]? = some e ∧ Word.bit mask eng = true ∧ Word.bit a.enabled eng = false ∧
    e.Outsizes a.config.lineWords bytes

def OutsizesIn (a : Afu) (ops : List Operation) (bytes : Nat) : Prop :=
  ∃ front mask rest, ops = front ++ .write (8 * Register.enableMask) mask :: rest ∧
    (a.run front).Outsizes mask bytes

def settle (mask : UInt64) (started : Option DataError × Afu) : Except AccessError Unit × Afu :=
  started.1.elim (.ok (), { started.2 with enabled := started.2.enabled ||| mask }) fun err =>
    (.error (.data err), started.2)

theorem enable_eq_startBehind (mask : UInt64) (a : Afu) :
    a.enable mask =
      settle (mask &&& a.allEngines) (startBehind (fun i => Word.bit (mask &&& a.allEngines) i &&
        !Word.bit (a.restart (mask &&& a.allEngines)).enabled i) []
        (a.restart (mask &&& a.allEngines)).engines (a.restart (mask &&& a.allEngines))) := by
  rw [enable]
  dsimp only
  rw [← restart]
  generalize a.restart (mask &&& a.allEngines) = b
  rw [startBehind, List.length_nil]
  generalize startFrom b.config _ 0 b.engines = started
  obtain ⟨engines, lines, _ | err⟩ := started
  · rfl
  · rfl

theorem length_startFrom (config : AfuConfig) (select : Nat → Bool) (i : Nat) (es : List Engine) :
    (startFrom config select i es).1.length = es.length := by
  induction es generalizing i with
  | nil => rfl
  | cons e es ih =>
    rw [startFrom]
    split
    · obtain ⟨e', lines | err⟩ := e.start config
      · rfl
      · exact congrArg (· + 1) (ih (i + 1))
    · exact congrArg (· + 1) (ih (i + 1))

structure SameShape (a b : Afu) : Prop where
  config : b.config = a.config
  length : b.engines.length = a.engines.length

theorem sameShape_restart (mask : UInt64) (a : Afu) : SameShape a (a.restart mask) := by
  obtain ⟨cycles, hrestart⟩ := restart_eq mask a
  rw [hrestart]
  exact ⟨rfl, rfl⟩

theorem sameShape_enable (mask : UInt64) (a : Afu) : SameShape a (a.enable mask).2 := by
  have hrestart := sameShape_restart (mask &&& a.allEngines) a
  rw [enable_eq_startBehind]
  generalize a.restart (mask &&& a.allEngines) = b at hrestart ⊢
  have hlength := length_startFrom b.config (fun i => Word.bit (mask &&& a.allEngines) i &&
    !Word.bit b.enabled i) 0 b.engines
  rw [startBehind, List.length_nil]
  generalize startFrom b.config _ 0 b.engines = started at hlength ⊢
  obtain ⟨engines, lines, _ | err⟩ := started
  · exact ⟨hrestart.config, hlength.trans hrestart.length⟩
  · exact ⟨hrestart.config, hlength.trans hrestart.length⟩

theorem sameShape_apply (a : Afu) (op : Operation) : SameShape a (a.apply op) := by
  cases op with
  | read offset =>
    rw [apply_read]
    split
    · exact ⟨rfl, List.length_map _⟩
    · exact ⟨rfl, rfl⟩
  | write offset value =>
    rw [apply, write]
    split
    · exact ⟨rfl, rfl⟩
    · rw [writeWord]
      cases Register.target a.engines.length (offset / 8) with
      | enable => exact sameShape_enable value a
      | disable => exact ⟨rfl, List.length_mapIdx⟩
      | shared reg => exact ⟨rfl, rfl⟩
      | engine eng reg => exact ⟨rfl, List.length_modify _ _ _⟩
      | readOnly => exact ⟨rfl, rfl⟩
  | stall eng on => exact ⟨rfl, List.length_modify _ _ _⟩
  | corrupt eng on => exact ⟨rfl, List.length_modify _ _ _⟩

theorem sameShape_run (a : Afu) (ops : List Operation) : SameShape a (a.run ops) := by
  induction ops generalizing a with
  | nil => exact ⟨rfl, rfl⟩
  | cons op ops ih =>
    have hstep := sameShape_apply a op
    have hrest := ih (a.apply op)
    exact ⟨hrest.config.trans hstep.config, hrest.length.trans hstep.length⟩

theorem OutsizesIn.wide {a : Afu} {ops : List Operation} {bytes : Nat}
    (h : a.OutsizesIn ops bytes) : 2 ^ 31 < a.config.caps.width ∧ 2 ^ 63 ≤ bytes := by
  obtain ⟨front, _, _, -, _, _, -, -, -, he⟩ := h
  rw [(sameShape_run a front).config] at he
  exact he.wide

end Afu

namespace CheckedAfu

open Checked

structure Represents (c : CheckedAfu) (a : Afu) : Prop where
  config : c.config = a.config
  engines : List.Forall₂ (CheckedEngine.Represents a.config) c.engines a.engines
  globals : c.globals = a.globals
  enabled : c.enabled = a.enabled
  cycles : c.cycles = a.cycles
  few : a.engines.length ≤ 16
  shared : a.globals.length = Register.globalCount

variable {c : CheckedAfu} {a : Afu} {large : Nat → Prop}

theorem Represents.length (h : c.Represents a) : c.engines.length = a.engines.length :=
  h.engines.length_eq

section

variable {config : AfuConfig} {es : List CheckedEngine} {es' : List Engine}

end

theorem Represents.addLines (h : c.Represents a) (lines : Nat) :
    Meets large (c.addLines lines) (Represents · (a.addLines lines)) := by
  refine (meets_count _).bind_pure ?_
  rintro _ rfl
  refine ⟨h.config, h.engines, h.globals, h.enabled, ?_, h.few, h.shared⟩
  change c.cycles + lines * c.config.cyclesPerLine = _
  rw [h.cycles, h.config]
  rfl

def Agrees {β : Type} (large : Nat → Prop) (x : Checked (β × CheckedAfu)) (y : β × Afu) : Prop :=
  Meets large x fun r => r.1 = y.1 ∧ r.2.Represents y.2

theorem Represents.restart (h : c.Represents a) (mask : UInt64) :
    Represents (if c.enabled = 0 ∧ mask ≠ 0 then { c with cycles := 0 } else c)
      (a.restart mask) := by
  rw [Afu.restart, h.enabled]
  split
  · exact ⟨h.config, h.engines, h.globals, rfl, rfl, h.few, h.shared⟩
  · exact h

end CheckedAfu

end AfuBench
