import AfuBench.Proofs.Polling

namespace AfuBench

namespace Slot

def activeAt? (s : Slot) : Event → Option Bool
  | .tick => some s.engine.active
  | _ => none

def activeAtTicks (config : AfuConfig) : Slot → List Event → List Bool
  | _, [] => []
  | s, event :: events =>
    (s.activeAt? event).toList ++ activeAtTicks config (s.apply config event) events

theorem event?_write_ne_tick (engines eng offset : Nat) (value : UInt64) :
    event? engines eng (.write offset value) ≠ some .tick := by
  rw [event?]
  split
  · exact Option.some_ne_none _ |>.symm
  · cases Register.target engines (offset / 8) with
    | enable => simp only; split <;> simp
    | disable => simp only; split <;> simp
    | shared reg => simp
    | engine e reg => simp only; split <;> simp
    | readOnly => simp

end Slot

namespace Afu

def activeBit? (eng : Nat) (a : Afu) : Operation → Option Bool
  | .read offset =>
    if offset = 8 * Register.activeMask then (a.read offset).1.toOption.map (Word.bit · eng)
    else none
  | _ => none

def activeBits (eng : Nat) : Afu → List Operation → List Bool
  | _, [] => []
  | a, op :: ops => (a.activeBit? eng op).toList ++ activeBits eng (a.apply op) ops

theorem activeBit?_eq {a : Afu} (hlen : a.engines.length ≤ Register.maxEngines) {eng : Nat}
    {s : Slot} (hs : a.slot? eng = some s) (op : Operation) :
    a.activeBit? eng op = (Slot.event? a.engines.length eng op).bind s.activeAt? := by
  have hother : ∀ event, event ≠ some .tick → Option.bind event s.activeAt? = none := by
    intro event hne
    rcases event with _ | event
    · rfl
    · cases event with
      | tick => exact absurd rfl hne
      | _ => rfl
  cases op with
  | read offset =>
    rw [activeBit?, Slot.event?]
    by_cases hactive : offset = 8 * Register.activeMask
    · have hbit : Word.bit a.activeMask eng = s.engine.active := by
        rw [bit_activeMask hlen, (slot?_eq_some_iff.1 hs).1, Option.any_some]
      rw [if_pos hactive, if_pos hactive, hactive, read_word]
      exact congrArg some hbit
    · rw [if_neg hactive, if_neg hactive]
      rfl
  | write offset value => exact (hother _ (Slot.event?_write_ne_tick _ _ _ _)).symm
  | stall e on =>
    rw [hother]
    · rfl
    · rw [Slot.event?]
      split <;> simp
  | corrupt e on =>
    rw [hother]
    · rfl
    · rw [Slot.event?]
      split <;> simp

section

variable {config : AfuConfig} {a b : Afu} {eng : Nat} {s : Slot}

theorem activeBits_eq (hv : config.Valid) (hlen : config.engines ≤ 16) (heng : eng < config.engines)
    (ha : Fixed config a) (hs : a.slot? eng = some s) (ops : List Operation) :
    activeBits eng a ops = s.activeAtTicks config (Slot.events config.engines eng ops) := by
  induction ops generalizing a s with
  | nil => rfl
  | cons op ops ih =>
    have hbit := activeBit?_eq (by rw [ha.length_eq]; exact hlen) hs op
    have hstep := slot?_apply (by rw [ha.config_eq]; exact hv) (by rw [ha.length_eq]; exact hlen)
      (by rw [ha.length_eq]; exact heng) op
    rw [hs, Option.map_some] at hstep
    rw [ha.length_eq] at hbit hstep
    rw [activeBits, hbit, ih (fixed_apply hv hlen ha op) hstep, Slot.events, Slot.events,
      List.filterMap_cons, ha.config_eq]
    cases Slot.event? config.engines eng op with
    | none => rfl
    | some event => rfl

structure Alike (eng : Nat) (a b : Afu) : Prop where
  engine : a.engines[eng]? = b.engines[eng]?
  registers : ∀ reg < Register.perEngine,
    (a.read (8 * Register.engineIndex eng reg)).1 = (b.read (8 * Register.engineIndex eng reg)).1
  running : (a.read (8 * Register.runMask)).1.map (Word.bit · eng) =
    (b.read (8 * Register.runMask)).1.map (Word.bit · eng)

theorem alike_of_slot? (hlen : config.engines ≤ 16) (ha : Fixed config a) (hb : Fixed config b)
    (hsa : a.slot? eng = some s) (hsb : b.slot? eng = some s) : Alike eng a b where
  engine := (slot?_eq_some_iff.1 hsa).1.trans (slot?_eq_some_iff.1 hsb).1.symm
  registers reg hreg := by
    rw [read_word, read_word, readWord_engine hsa (by rw [ha.length_eq]; exact hlen) hreg,
      readWord_engine hsb (by rw [hb.length_eq]; exact hlen) hreg, ha.config_eq, hb.config_eq]
  running :=
    congrArg Except.ok ((slot?_eq_some_iff.1 hsa).2.trans (slot?_eq_some_iff.1 hsb).2.symm)

/-- Two runs of new devices with the same events for one engine: all writes to its registers, its bit
of every enable and disable, its switches, and the reads of the active mask. To each point of the one
run belongs a point of the other, and there the engine is the same to its last register. Apart from
reads of the active mask, no read changes anything. -/
theorem alike_of_events_eq (hv : config.Valid) (heng : eng < config.clamp.engines)
    {ops others : List Operation}
    (h : Slot.events config.clamp.engines eng ops = Slot.events config.clamp.engines eng others) :
    (∀ before, before <+: ops → ∃ upTo, upTo <+: others ∧
      Slot.events config.clamp.engines eng before = Slot.events config.clamp.engines eng upTo) ∧
      (∀ before upTo, before <+: ops → upTo <+: others →
        Slot.events config.clamp.engines eng before = Slot.events config.clamp.engines eng upTo →
          Alike eng ((new config).run before) ((new config).run upTo)) ∧
      activeBits eng (new config) ops = activeBits eng (new config) others ∧
      ∀ (a : Afu) (offset : Nat), offset ≠ 8 * Register.activeMask →
        a.apply (.read offset) = a := by
  have hclamp := AfuConfig.clamp_valid hv
  have hlen := config.clamp_engines_le
  refine ⟨?_, ?_, ?_, ?_⟩
  · intro before hbefore
    have hevents := hbefore.filterMap (Slot.event? config.clamp.engines eng)
    rw [show ops.filterMap _ = others.filterMap _ from h] at hevents
    exact List.prefix_filterMap_iff.1 hevents
  · intro before upTo _ _ hsame
    have hslot (ops : List Operation) : ((new config).run ops).slot? eng =
        some (Slot.idle.run config.clamp (Slot.events config.clamp.engines eng ops)) := by
      rw [slot?_run hclamp hlen (fixed_new config) heng, slot?_new heng, Option.map_some]
    have hbefore := hslot before
    rw [hsame] at hbefore
    exact alike_of_slot? hlen (fixed_run hclamp hlen (fixed_new config) before)
      (fixed_run hclamp hlen (fixed_new config) upTo) hbefore (hslot upTo)
  · rw [activeBits_eq hclamp hlen heng (fixed_new config) (slot?_new heng),
      activeBits_eq hclamp hlen heng (fixed_new config) (slot?_new heng), h]
  · intro a offset hoffset
    rw [apply_read, if_neg hoffset]

end

def quietRun : List Operation :=
  [.write (8 * Register.engineIndex 0 Register.writeTraffic) (Burst.toWord ⟨true, 1, 1⟩),
    .write (8 * Register.enableMask) 1, .read (8 * Register.activeMask),
    .read (8 * Register.activeMask), .read (8 * Register.activeMask),
    .write (8 * Register.disableMask) 1]

/-- The same run, while engine 1 streams and stalls, with refused accesses in between. -/
def noisyRun : List Operation :=
  [.write (8 * Register.engineIndex 1 Register.readTraffic) (Burst.toWord ⟨true, 0, 9⟩),
    .write (8 * Register.engineIndex 0 Register.writeTraffic) (Burst.toWord ⟨true, 1, 1⟩),
    .write (8 * Register.header) 7, .write 3 7, .write (8 * Register.enableMask) 3,
    .stall 1 true, .read (8 * Register.activeMask), .write (8 * Register.globalIndex 2) 5,
    .write (8 * Register.disableMask) 2, .read (8 * Register.activeMask),
    .read (8 * Register.runMask), .read (8 * Register.activeMask),
    .write (8 * Register.disableMask) 5]

theorem alike_of_events_eq_noisy :
    AfuConfig.standard.Valid ∧ 0 < AfuConfig.standard.clamp.engines ∧
      Slot.events 2 0 quietRun = Slot.events 2 0 noisyRun ∧
      Alike 0 ((new .standard).run quietRun) ((new .standard).run noisyRun) ∧
      activeBits 0 (new .standard) quietRun = [true, true, false] ∧
      activeBits 0 (new .standard) noisyRun = [true, true, false] := by
  have hv : AfuConfig.standard.Valid := by decide
  have heng : 0 < AfuConfig.standard.clamp.engines := by decide
  have hevents : Slot.events 2 0 quietRun = Slot.events 2 0 noisyRun := by decide
  have hquiet : activeBits 0 (new .standard) quietRun = [true, true, false] := by decide
  obtain ⟨_, halike, hactive, _⟩ := alike_of_events_eq hv heng hevents
  refine ⟨hv, heng, hevents, halike _ _ (List.prefix_refl _) (List.prefix_refl _) hevents, hquiet, ?_⟩
  rw [← hactive, hquiet]

end Afu

end AfuBench
