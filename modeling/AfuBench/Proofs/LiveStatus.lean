import AfuBench.Proofs.StreamingRun

namespace AfuBench

namespace Afu

def Operation.stall? (eng : Nat) (op : Operation) : Option Bool :=
  match op with
  | .stall e on => if e = eng then some on else none
  | _ => none

def stallSwitch (eng : Nat) (ops : List Operation) : Bool :=
  (ops.reverse.findSome? (Operation.stall? eng)).getD false

end Afu

namespace Engine

theorem stalled_start {config : AfuConfig} (hv : config.Valid) (e : Engine) :
    (e.start config).1.stalled = e.stalled := by
  cases hendless : e.unlimited with
  | true => rw [start_unlimited hendless]
  | false => rw [start_finite hv hendless]

theorem stalled_tick (e : Engine) : e.tick.stalled = e.stalled := by
  rw [tick]
  split <;> rfl

theorem active_iff (e : Engine) :
    e.active = true ↔ e.streaming = true ∨ 0 < e.busy ∨ e.stalled = true ∧ e.started = true := by
  rw [active, Bool.or_eq_true, Bool.or_eq_true, Bool.and_eq_true, decide_eq_true_iff, or_assoc]

end Engine

namespace Slot

variable {config : AfuConfig} {eng : Nat} {op : Afu.Operation}

theorem stalled_apply (hv : config.Valid) (s : Slot) {event : Event} (h : Means eng op event) :
    (s.apply config event).engine.stalled = (op.stall? eng).getD s.engine.stalled := by
  cases h with
  | tick => exact Engine.stalled_tick s.engine
  | enable =>
    rw [apply]
    split
    · rfl
    · exact Engine.stalled_start hv s.engine
  | disable => exact Engine.stalled_stop config s.engine
  | write reg value =>
    obtain ⟨readWord, writeWord, seed, hwrite⟩ := s.engine.writeRegister_eq reg value
    rw [apply, hwrite]
    rfl
  | stall on =>
    rw [apply, Afu.Operation.stall?, if_pos rfl]
    rfl
  | corrupt on => rfl

theorem stall?_of_event?_eq_none {engines : Nat} (h : event? engines eng op = none) :
    op.stall? eng = none := by
  cases op with
  | stall e on =>
    rw [event?] at h
    split at h
    · cases h
    · exact if_neg ‹_›
  | _ => rfl

theorem stalled_run (hv : config.Valid) (hlen : config.engines ≤ Register.maxEngines) (s : Slot)
    (ops : List Afu.Operation) :
    (s.run config (events config.engines eng ops)).engine.stalled =
      (ops.reverse.findSome? (Afu.Operation.stall? eng)).getD s.engine.stalled := by
  induction ops generalizing s with
  | nil => rfl
  | cons op ops ih =>
    have hlast : (op :: ops).reverse.findSome? (Afu.Operation.stall? eng) =
        (ops.reverse.findSome? (Afu.Operation.stall? eng)).or (op.stall? eng) := by
      rw [List.reverse_cons, List.findSome?_append, List.findSome?_singleton]
    rw [hlast, Option.getD_or, events, List.filterMap_cons]
    cases hevent : event? config.engines eng op with
    | none =>
      rw [stall?_of_event?_eq_none hevent]
      exact ih s
    | some event =>
      rw [← stalled_apply hv s (means_of_event? hlen hevent)]
      exact ih (s.apply config event)

end Slot

namespace Afu

structure Shows (config : AfuConfig) (ops : List Operation) (eng : Nat) (e : Engine)
    (status runMask activeMask : UInt64) : Prop where
  capabilities : Capabilities.ofWord status =
    { config.caps with maxBurst := config.caps.maxBurst % 2 ^ 15 }
  inReset : (Activity.ofWord status).inReset = !e.started
  running : (Activity.ofWord status).running = Word.bit runMask eng
  active : (Activity.ofWord status).active = true ↔
    e.streaming = true ∨ 0 < e.busy ∨ e.stalled = true ∧ e.started = true
  active_mask : (Activity.ofWord status).active = Word.bit activeMask eng
  waitRequest : (Activity.ofWord status).waitRequest = e.stalled
  stalled : e.stalled = stallSwitch eng ops

theorem shows_status {config : AfuConfig} {a : Afu} {eng : Nat} {s : Slot}
    (ha : Sound config a) (hs : a.slot? eng = some s) {ops : List Operation}
    (hstalled : s.engine.stalled = stallSwitch eng ops) :
    Shows config ops eng s.engine (s.engine.status config s.running) a.enabled a.activeMask := by
  have hactivity : Activity.ofWord (s.engine.status config s.running) =
      ⟨!s.engine.started, s.running, s.engine.active, s.engine.stalled⟩ :=
    Activity.ofWord_statusWord config.caps _
  constructor
  case capabilities => exact Capabilities.ofWord_statusWord (Nat.lt_succ_of_le ha.valid.2.1) _
  case inReset => rw [hactivity]
  case running => rw [hactivity, (slot?_eq_some_iff.1 hs).2]
  case active => rw [hactivity, Engine.active_iff]
  case active_mask => rw [hactivity, bit_activeMask_slot ha hs]
  case waitRequest => rw [hactivity]
  case stalled => exact hstalled

end Afu

namespace Bench

theorem readEngine_status {config : AfuConfig} (hv : config.Valid) (ops : List Afu.Operation)
    {eng : Nat} (heng : eng < min config.engines 16) :
    ∃ e status runMask activeMask,
      ((Afu.new config).run ops).engines[eng]? = some e ∧
        ((readEngine eng Register.status : Bench Afu UInt64).exec ((Afu.new config).run ops)).1 =
          .ok status ∧
        ((enabled : Bench Afu UInt64).exec ((Afu.new config).run ops)).1 = .ok runMask ∧
        ((active : Bench Afu UInt64).exec ((Afu.new config).run ops)).1 = .ok activeMask ∧
        Afu.Shows config ops eng e status runMask activeMask := by
  have ha : Afu.Sound config.clamp ((Afu.new config).run ops) := Afu.Reachable.sound hv ⟨ops, rfl⟩
  have hslot := Afu.slot?_run ha.valid ha.few (Afu.fixed_new config) heng ops
  rw [Afu.slot?_new heng, Option.map_some] at hslot
  have hstalled : (Slot.idle.run config.clamp
      (Slot.events config.clamp.engines eng ops)).engine.stalled = Afu.stallSwitch eng ops :=
    Slot.stalled_run ha.valid ha.few Slot.idle ops
  obtain ⟨hcaps, hreset, hrunning, hactive, hmask, hwait, hswitch⟩ :=
    Afu.shows_status ha hslot hstalled
  refine ⟨_, _, _, _, (Afu.slot?_eq_some_iff.1 hslot).1, ?_, ?_, ?_, hcaps, hreset, hrunning,
    hactive, hmask, hwait, hswitch⟩
  · exact congrArg Prod.fst ((performs_readEngine ha heng (by decide) hslot).exec rfl)
  · exact congrArg Prod.fst ((performs_read Register.runMask _).exec rfl)
  · exact congrArg Prod.fst ((performs_read Register.activeMask _).exec rfl)

/-- The widest lines there are, and a burst limit beyond its field. -/
def wideConfig : AfuConfig :=
  { AfuConfig.standard with engines := 3, caps := ⟨248, 0x8011, true, false, true⟩ }

def stalledStart : List Afu.Operation :=
  [.stall 1 false, .stall 1 true, .stall 2 true, .write (8 * Register.enableMask) 6, .stall 2 false]

theorem readEngine_status_stalled :
    wideConfig.Valid ∧ 1 < min wideConfig.engines 16 ∧
      ∃ status, ((readEngine 1 Register.status : Bench Afu UInt64).exec
          ((Afu.new wideConfig).run stalledStart)).1 = .ok status ∧
        Capabilities.ofWord status = ⟨248, 17, true, false, true⟩ ∧
        (Activity.ofWord status).inReset = false ∧ (Activity.ofWord status).active = true ∧
        (Activity.ofWord status).waitRequest = true := by
  have hv : wideConfig.Valid := by decide
  have heng : 1 < min wideConfig.engines 16 := by decide
  obtain ⟨e, status, runMask, activeMask, he, hread, _, _, hshows⟩ :=
    readEngine_status hv stalledStart heng
  obtain rfl : { Engine.idle with started := true, busy := 2, stalled := true } = e :=
    Option.some.inj he
  refine ⟨hv, heng, status, hread, hshows.capabilities, hshows.inReset, ?_, hshows.waitRequest⟩
  exact hshows.active.2 (.inr (.inr ⟨rfl, rfl⟩))

end Bench

end AfuBench
