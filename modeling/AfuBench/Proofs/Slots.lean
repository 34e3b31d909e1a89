import AfuBench.Afu.Device
import Mathlib.Logic.Function.Basic
/-!
The device engine by engine. What an operation does to one engine depends on that engine and on its
bit of the run mask alone, so a run of the device is a run of each engine by itself.
-/

namespace AfuBench

structure Slot where
  engine : Engine
  running : Bool
  deriving DecidableEq, Repr

inductive Slot.Event where
  | tick
  | enable
  | disable
  | write (reg : Nat) (value : UInt64)
  | stall (on : Bool)
  | corrupt (on : Bool)
  deriving DecidableEq, Repr

namespace Slot

def idle : Slot :=
  ⟨.idle, false⟩

def apply (config : AfuConfig) (s : Slot) : Event → Slot
  | .tick => { s with engine := s.engine.tick }
  | .enable => if s.running then s else ⟨(s.engine.start config).1, true⟩
  | .disable => ⟨s.engine.stop config, false⟩
  | .write reg value => { s with engine := s.engine.writeRegister reg value }
  | .stall on => { s with engine := { s.engine with stalled := on } }
  | .corrupt on => { s with engine := { s.engine with corrupt := on } }

def run (config : AfuConfig) (s : Slot) (events : List Event) : Slot :=
  events.foldl (apply config) s

theorem run_append (config : AfuConfig) (s : Slot) (before after : List Event) :
    s.run config (before ++ after) = (s.run config before).run config after :=
  List.foldl_append

def event? (engines eng : Nat) : Afu.Operation → Option Event
  | .read offset => if offset = 8 * Register.activeMask then some .tick else none
  | .write offset value =>
    if offset % 8 ≠ 0 then none
    else match Register.target engines (offset / 8) with
      | .enable => if Word.bit value eng then some .enable else none
      | .disable => if Word.bit value eng then some .disable else none
      | .engine e reg => if e = eng then some (.write reg value) else none
      | .shared _ | .readOnly => none
  | .stall e on => if e = eng then some (.stall on) else none
  | .corrupt e on => if e = eng then some (.corrupt on) else none

theorem event?_write (engines eng index : Nat) (value : UInt64) :
    event? engines eng (.write (8 * index) value) =
      match Register.target engines index with
      | .enable => if Word.bit value eng then some .enable else none
      | .disable => if Word.bit value eng then some .disable else none
      | .engine e reg => if e = eng then some (.write reg value) else none
      | .shared _ | .readOnly => none := by
  rw [event?, if_neg (by omega), Nat.mul_div_cancel_left index (by omega)]

def events (engines eng : Nat) (ops : List Afu.Operation) : List Event :=
  ops.filterMap (event? engines eng)

theorem events_append (engines eng : Nat) (before after : List Afu.Operation) :
    events engines eng (before ++ after) = events engines eng before ++ events engines eng after :=
  List.filterMap_append

end Slot

theorem AfuConfig.wordCount_of_valid {config : AfuConfig} (hv : config.Valid) :
    wordCount config.caps.width = .ok config.lineWords := by
  obtain ⟨hpos, _, hmod⟩ := hv
  rw [wordCount_eq_ok_iff, AfuConfig.lineWords]
  omega

theorem AfuConfig.lineWords_pos {config : AfuConfig} (hv : config.Valid) :
    0 < config.lineWords :=
  (wordCount_eq_ok_iff.1 (wordCount_of_valid hv)).1

theorem Engine.start_ok {config : AfuConfig} (hv : config.Valid) (e : Engine) :
    ∃ lines, (e.start config).2 = .ok lines := by
  rw [Engine.start]
  split
  · exact ⟨_, rfl⟩
  · rw [AfuConfig.wordCount_of_valid hv]
    split <;> exact ⟨_, rfl⟩

namespace Afu

def slot? (a : Afu) (eng : Nat) : Option Slot :=
  a.engines[eng]?.map fun e => ⟨e, Word.bit a.enabled eng⟩

theorem startFrom_ok {config : AfuConfig} (hv : config.Valid) (select : Nat → Bool) (i : Nat)
    (es : List Engine) :
    (startFrom config select i es).2.2 = none ∧
      ∀ j, (startFrom config select i es).1[j]? =
        es[j]?.map fun e => if select (i + j) then (e.start config).1 else e := by
  induction es generalizing i with
  | nil => exact ⟨rfl, fun j => by simp [startFrom]⟩
  | cons e es ih =>
    obtain ⟨hnone, hget⟩ := ih (i + 1)
    rw [startFrom]
    by_cases hsel : select i = true
    · obtain ⟨lines, hlines⟩ := Engine.start_ok hv e
      have hstart : e.start config = ((e.start config).1, .ok lines) := by rw [← hlines]
      rw [if_pos hsel, hstart]
      refine ⟨hnone, ?_⟩
      intro j
      cases j with
      | zero => simp [hsel]
      | succ j => simpa [Nat.add_comm 1 j, Nat.add_assoc] using hget j
    · rw [if_neg hsel]
      refine ⟨hnone, ?_⟩
      intro j
      cases j with
      | zero => simp [hsel]
      | succ j => simpa [Nat.add_comm 1 j, Nat.add_assoc] using hget j

theorem bit_allEngines {a : Afu} (hlen : a.engines.length ≤ 16) {i : Nat} (hi : i < 64) :
    Word.bit a.allEngines i = decide (i < a.engines.length) := by
  have hall : ∀ n ≤ 16, ∀ i < 64, Word.bit (Word.ofBit true n - 1) i = decide (i < n) := by decide
  exact hall _ hlen i hi

theorem enable_eq {a : Afu} (hv : a.config.Valid) (mask : UInt64) :
    ∃ engines cycles,
      a.enable mask =
        (.ok (), { a with engines, cycles, enabled := a.enabled ||| (mask &&& a.allEngines) }) ∧
      ∀ j, engines[j]? = a.engines[j]?.map fun e =>
        if Word.bit (mask &&& a.allEngines) j && !Word.bit a.enabled j then (e.start a.config).1
        else e := by
  obtain ⟨hnone, hget⟩ := startFrom_ok hv
    (fun i => Word.bit (mask &&& a.allEngines) i && !Word.bit a.enabled i) 0 a.engines
  unfold enable
  by_cases hclear : a.enabled = 0 ∧ mask &&& a.allEngines ≠ 0
  · simp only [hclear, ne_eq, not_false_eq_true, and_self, if_true]
    simp only [hclear.1] at hnone hget
    rw [hnone]
    refine ⟨_, _, rfl, ?_⟩
    intro j
    simpa only [Nat.zero_add, addLines] using hget j
  · simp only [hclear, if_false]
    rw [hnone]
    refine ⟨_, _, rfl, ?_⟩
    intro j
    simpa only [Nat.zero_add, addLines] using hget j

theorem length_eq_of_getElem?_map {α β : Type} {xs : List α} {ys : List β} {f : Nat → α → β}
    (h : ∀ j, ys[j]? = xs[j]?.map (f j)) : ys.length = xs.length := by
  have hy : ys.length ≤ xs.length := by
    rw [← List.getElem?_eq_none_iff, h, List.getElem?_eq_none (Nat.le_refl _), Option.map_none]
  have hx : xs.length ≤ ys.length := by
    rw [← List.getElem?_eq_none_iff, ← Option.map_eq_none_iff (f := f ys.length), ← h,
      List.getElem?_eq_none (Nat.le_refl _)]
  exact Nat.le_antisymm hy hx

theorem slot?_tick (a : Afu) (eng : Nat) :
    a.tick.slot? eng = (a.slot? eng).map fun s => s.apply a.config .tick := by
  simp only [slot?, tick, addLines, List.getElem?_map, Option.map_map]
  rfl

theorem slot?_disable {a : Afu} {eng : Nat} (heng : eng < 64) (mask : UInt64) :
    (a.disable mask).slot? eng =
      (a.slot? eng).map fun s => if Word.bit mask eng then s.apply a.config .disable else s := by
  simp only [slot?, disable, List.getElem?_mapIdx, Option.map_map]
  congr 1
  funext e
  by_cases hbit : Word.bit mask eng = true
  · simp [hbit, Word.bit_and, Word.bit_not _ heng, Slot.apply]
  · simp [hbit, Word.bit_and, Word.bit_not _ heng]

theorem slot?_enable {a : Afu} (hv : a.config.Valid) (hlen : a.engines.length ≤ 16) {eng : Nat}
    (heng : eng < a.engines.length) (mask : UInt64) :
    (a.enable mask).2.slot? eng =
      (a.slot? eng).map fun s => if Word.bit mask eng then s.apply a.config .enable else s := by
  obtain ⟨engines, cycles, henable, hget⟩ := enable_eq hv mask
  have hall : Word.bit a.allEngines eng = true := by
    rw [bit_allEngines hlen (by omega), decide_eq_true heng]
  simp only [henable, slot?, hget, Option.map_map]
  congr 1
  funext e
  by_cases hbit : Word.bit mask eng = true
  · by_cases hrun : Word.bit a.enabled eng = true
    · simp [hbit, hrun, hall, Word.bit_or, Word.bit_and, Slot.apply]
    · simp [hbit, hrun, hall, Word.bit_or, Word.bit_and, Slot.apply]
  · simp [hbit, Word.bit_or, Word.bit_and]

theorem slot?_modify (a : Afu) (e eng : Nat) (f : Engine → Engine) :
    ({ a with engines := a.engines.modify e f } : Afu).slot? eng =
      (a.slot? eng).map fun s => if e = eng then { s with engine := f s.engine } else s := by
  simp only [slot?, List.getElem?_modify, Option.map_eq_map, Option.map_map]
  congr 1
  funext x
  by_cases he : e = eng
  · simp [he]
  · simp [he]

theorem source_eq_activeMask_iff {engines index : Nat} :
    Register.source engines index = .activeMask ↔ index = Register.activeMask := by
  constructor
  · intro h
    by_contra hne
    unfold Register.source at h
    simp only [hne, if_false] at h
    repeat' split at h
    all_goals exact absurd h (by simp)
  · rintro rfl
    rfl

theorem readWord_snd (a : Afu) (index : Nat) :
    (a.readWord index).2 = if index = Register.activeMask then a.tick else a := by
  by_cases hactive : index = Register.activeMask
  · rw [if_pos hactive, readWord, source_eq_activeMask_iff.2 hactive]
  · rw [if_neg hactive, readWord]
    cases hsource : Register.source a.engines.length index with
    | activeMask => exact absurd (source_eq_activeMask_iff.1 hsource) hactive
    | _ => rfl

theorem apply_read (a : Afu) (offset : Nat) :
    a.apply (.read offset) = if offset = 8 * Register.activeMask then a.tick else a := by
  rw [apply, read]
  by_cases halign : offset % 8 = 0
  · rw [if_neg (by omega), readWord_snd]
    have hindex : offset / 8 = Register.activeMask ↔ offset = 8 * Register.activeMask := by omega
    simp only [hindex]
  · have hne : offset ≠ 8 * Register.activeMask := by omega
    rw [if_pos halign, if_neg hne]

theorem slot?_apply {a : Afu} (hv : a.config.Valid) (hlen : a.engines.length ≤ 16) {eng : Nat}
    (heng : eng < a.engines.length) (op : Operation) :
    (a.apply op).slot? eng = (a.slot? eng).map fun s =>
      (Slot.event? a.engines.length eng op).elim s (s.apply a.config) := by
  cases op with
  | read offset =>
    rw [apply_read, Slot.event?]
    by_cases hactive : offset = 8 * Register.activeMask
    · rw [if_pos hactive, if_pos hactive]
      exact slot?_tick a eng
    · rw [if_neg hactive, if_neg hactive]
      exact Option.map_id'.symm
  | write offset value =>
    rw [apply, write, Slot.event?]
    by_cases halign : offset % 8 = 0
    · rw [if_neg (by omega), if_neg (by omega), writeWord]
      cases Register.target a.engines.length (offset / 8) with
      | enable =>
        rw [slot?_enable hv hlen heng]
        by_cases hbit : Word.bit value eng = true <;> simp [hbit]
      | disable =>
        simp only
        rw [slot?_disable (by omega)]
        by_cases hbit : Word.bit value eng = true <;> simp [hbit]
      | shared reg => exact Option.map_id'.symm
      | engine e reg =>
        simp only
        rw [slot?_modify]
        by_cases he : e = eng <;> simp [he, Slot.apply]
      | readOnly => exact Option.map_id'.symm
    · rw [if_pos halign, if_pos halign]
      exact Option.map_id'.symm
  | stall e on =>
    rw [apply, setStalled, slot?_modify, Slot.event?]
    by_cases he : e = eng <;> simp [he, Slot.apply]
  | corrupt e on =>
    rw [apply, setCorrupt, slot?_modify, Slot.event?]
    by_cases he : e = eng <;> simp [he, Slot.apply]

structure Fixed (config : AfuConfig) (a : Afu) : Prop where
  config_eq : a.config = config
  length_eq : a.engines.length = config.engines
  mask : ∀ i, Word.bit a.enabled i = true → i < config.engines

theorem fixed_new (config : AfuConfig) : Fixed config.clamp (new config) where
  config_eq := rfl
  length_eq := by simp [new]
  mask i hi := by simp [new, Word.bit_zero] at hi

theorem fixed_enable {config : AfuConfig} (hv : config.Valid) (hlen : config.engines ≤ 16)
    {a : Afu} (h : Fixed config a) (mask : UInt64) : Fixed config (a.enable mask).2 := by
  obtain ⟨engines, cycles, henable, hget⟩ := enable_eq (by rw [h.config_eq]; exact hv) mask
  rw [henable]
  refine ⟨h.config_eq, (length_eq_of_getElem?_map hget).trans h.length_eq, ?_⟩
  intro i hi
  by_cases h64 : i < 64
  · rw [Word.bit_or, Word.bit_and, bit_allEngines (by rw [h.length_eq]; exact hlen) h64,
      Bool.or_eq_true, Bool.and_eq_true] at hi
    rcases hi with hi | ⟨_, hi⟩
    · exact h.mask i hi
    · rw [← h.length_eq]
      exact of_decide_eq_true hi
  · rw [Word.bit, BitVec.getLsbD_of_ge _ _ (by omega)] at hi
    exact absurd hi Bool.false_ne_true

theorem fixed_disable {config : AfuConfig} {a : Afu} (h : Fixed config a) (mask : UInt64) :
    Fixed config (a.disable mask) := by
  refine ⟨h.config_eq, ?_, ?_⟩
  · rw [disable, List.length_mapIdx, h.length_eq]
  · intro i hi
    rw [disable, Word.bit_and, Bool.and_eq_true] at hi
    exact h.mask i hi.1

theorem fixed_tick {config : AfuConfig} {a : Afu} (h : Fixed config a) :
    Fixed config a.tick := by
  refine ⟨h.config_eq, ?_, h.mask⟩
  rw [tick, addLines, List.length_map, h.length_eq]

theorem fixed_modify {config : AfuConfig} {a : Afu} (h : Fixed config a) (e : Nat)
    (f : Engine → Engine) : Fixed config { a with engines := a.engines.modify e f } :=
  ⟨h.config_eq, by rw [List.length_modify, h.length_eq], h.mask⟩

theorem fixed_apply {config : AfuConfig} (hv : config.Valid) (hlen : config.engines ≤ 16)
    {a : Afu} (h : Fixed config a) (op : Operation) : Fixed config (a.apply op) := by
  cases op with
  | read offset =>
    rw [apply_read]
    split
    · exact fixed_tick h
    · exact h
  | write offset value =>
    rw [apply, write]
    split
    · exact h
    · rw [writeWord]
      cases Register.target a.engines.length (offset / 8) with
      | enable => exact fixed_enable hv hlen h value
      | disable => exact fixed_disable h value
      | shared reg => exact ⟨h.config_eq, h.length_eq, h.mask⟩
      | engine e reg => exact fixed_modify h e _
      | readOnly => exact h
  | stall e on => exact fixed_modify h e _
  | corrupt e on => exact fixed_modify h e _

theorem fixed_run {config : AfuConfig} (hv : config.Valid) (hlen : config.engines ≤ 16)
    {a : Afu} (h : Fixed config a) (ops : List Operation) : Fixed config (a.run ops) := by
  induction ops generalizing a with
  | nil => exact h
  | cons op ops ih => exact ih (fixed_apply hv hlen h op)

theorem slot?_run {config : AfuConfig} (hv : config.Valid) (hlen : config.engines ≤ 16) {a : Afu}
    (h : Fixed config a) {eng : Nat} (heng : eng < config.engines) (ops : List Operation) :
    (a.run ops).slot? eng =
      (a.slot? eng).map fun s => s.run config (Slot.events config.engines eng ops) := by
  induction ops generalizing a with
  | nil => exact Option.map_id'.symm
  | cons op ops ih =>
    have hva : a.config.Valid := by
      rw [h.config_eq]
      exact hv
    have hstep := slot?_apply hva (by rw [h.length_eq]; exact hlen)
      (by rw [h.length_eq]; exact heng) op
    change ((a.apply op).run ops).slot? eng = _
    rw [ih (fixed_apply hv hlen h op), hstep, Option.map_map, h.length_eq, h.config_eq]
    congr 1
    funext s
    cases hevent : Slot.event? config.engines eng op with
    | none => simp [Slot.events, hevent]
    | some ev => simp [Slot.events, hevent, Slot.run]

theorem slot?_new {config : AfuConfig} {eng : Nat} (heng : eng < config.clamp.engines) :
    (new config).slot? eng = some Slot.idle := by
  simp [slot?, new, heng, Word.bit_zero, Slot.idle]

end Afu

namespace AfuConfig

theorem clamp_engines_le (config : AfuConfig) : config.clamp.engines ≤ 16 :=
  Nat.min_le_right config.engines 16

theorem clamp_valid {config : AfuConfig} (hv : config.Valid) : config.clamp.Valid :=
  hv

end AfuConfig

namespace Afu.Reachable

variable {config : AfuConfig} {a : Afu}

theorem fixed (hv : config.Valid) (h : Afu.Reachable config a) : Fixed config.clamp a := by
  obtain ⟨ops, rfl⟩ := h
  exact fixed_run (AfuConfig.clamp_valid hv) config.clamp_engines_le (fixed_new config) ops

theorem run (h : Afu.Reachable config a) (ops : List Operation) :
    Afu.Reachable config (a.run ops) := by
  obtain ⟨before, rfl⟩ := h
  refine ⟨before ++ ops, ?_⟩
  simp only [Afu.run, List.foldl_append]

theorem slot? (hv : config.Valid) (h : Afu.Reachable config a) {eng : Nat}
    (heng : eng < config.clamp.engines) :
    ∃ events, a.slot? eng = some (Slot.idle.run config.clamp events) := by
  obtain ⟨ops, rfl⟩ := h
  refine ⟨Slot.events config.clamp.engines eng ops, ?_⟩
  rw [slot?_run (AfuConfig.clamp_valid hv) config.clamp_engines_le (fixed_new config) heng,
    slot?_new heng, Option.map_some]

end Afu.Reachable

def Slot.StreamsEnabled (s : Slot) : Prop :=
  s.engine.streaming = true → s.running = true

namespace Slot

theorem streamsEnabled_apply {config : AfuConfig} {s : Slot} (h : s.StreamsEnabled)
    (event : Event) : (s.apply config event).StreamsEnabled := by
  cases event with
  | tick =>
    intro hs
    apply h
    simp only [apply, Engine.tick] at hs
    split at hs
    · assumption
    · exact hs
  | enable =>
    rw [apply]
    split
    · exact h
    · exact fun _ => rfl
  | disable =>
    intro hs
    simp only [apply, Engine.stop] at hs
    split at hs
    · exact absurd hs Bool.false_ne_true
    · exact absurd hs ‹_›
  | write reg value =>
    intro hs
    apply h
    simp only [apply, Engine.writeRegister] at hs
    repeat' split at hs
    all_goals exact hs
  | stall on => exact h
  | corrupt on => exact h

theorem streamsEnabled_run {config : AfuConfig} {s : Slot} (h : s.StreamsEnabled)
    (events : List Event) : (s.run config events).StreamsEnabled := by
  induction events generalizing s with
  | nil => exact h
  | cons event events ih => exact ih (streamsEnabled_apply h event)

end Slot

end AfuBench
