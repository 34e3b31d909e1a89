import AfuBench.Proofs.EngineMemory
import AfuBench.Proofs.Polling
import AfuBench.Proofs.RegisterFields

namespace AfuBench

namespace Engine

structure Untouched (e : Engine) : Prop where
  streaming : e.streaming = false
  busy : e.busy = 0
  memory : e.memory = []
  readBursts : e.readBursts = 0
  readLines : e.readLines = 0
  writeLines : e.writeLines = 0
  readHash : e.readHash = 0

theorem Untouched.tick {e : Engine} (h : e.Untouched) : e.tick = e := by
  have hbusy : e.busy - 1 = e.busy := by rw [h.busy]
  rw [tick_eq_rest h.streaming, rest, hbusy]

theorem Untouched.inactive {e : Engine} (h : e.Untouched) (hstarted : e.started = false) :
    e.active = false := by
  rw [active, h.streaming, h.busy, hstarted]
  simp

def countersAndHash : List Nat :=
  [Register.readBursts, Register.readLines, Register.writeLines, Register.readHash]

theorem Untouched.readRegister {e : Engine} (h : e.Untouched) (config : AfuConfig) (running : Bool) :
    ∀ reg ∈ countersAndHash, e.readRegister config running reg = 0 := by
  intro reg hreg
  simp only [countersAndHash, List.mem_cons, List.not_mem_nil, or_false] at hreg
  rcases hreg with rfl | rfl | rfl | rfl
  · exact congrArg UInt64.ofNat h.readBursts
  · exact congrArg UInt64.ofNat h.readLines
  · exact congrArg UInt64.ofNat h.writeLines
  · exact h.readHash

theorem busy_tick_le (e : Engine) : e.tick.busy ≤ e.busy := by
  rw [tick]
  split
  · exact Nat.le_refl _
  · exact Nat.sub_le _ _

theorem memory_tick (e : Engine) : e.tick.memory = e.memory := by
  rw [tick]
  split <;> rfl

theorem started_tick (e : Engine) : e.tick.started = e.started := by
  rw [tick]
  split <;> rfl

theorem memory_stop (config : AfuConfig) (e : Engine) : (e.stop config).memory = e.memory := by
  rw [stop]
  split <;> rfl

theorem started_stop (config : AfuConfig) (e : Engine) : (e.stop config).started = e.started := by
  rw [stop]
  split <;> rfl

theorem writeRegister_eq (reg : Nat) (value : UInt64) (e : Engine) :
    ∃ readWord writeWord seed,
      e.writeRegister reg value = { e with readWord, writeWord, seed } := by
  rw [writeRegister]
  split
  · exact ⟨value, e.writeWord, e.seed, rfl⟩
  split
  · exact ⟨e.readWord, value, e.seed, rfl⟩
  split
  · exact ⟨e.readWord, e.writeWord, value, rfl⟩
  · exact ⟨e.readWord, e.writeWord, e.seed, rfl⟩

theorem length_of_mem_flipFirst {words : Nat} {lines : List (List UInt64)}
    (h : ∀ line ∈ lines, line.length = words) : ∀ line ∈ flipFirst lines, line.length = words := by
  cases lines with
  | nil => exact h
  | cons line lines =>
    cases line with
    | nil => exact h
    | cons w ws => simpa [flipFirst] using h

theorem length_of_mem_writtenLines {words : Nat} {e : Engine} :
    ∀ line ∈ e.writtenLines words, line.length = words := by
  rw [writtenLines]
  split
  · exact length_of_mem_flipFirst fun _ => length_of_mem_vectors
  · exact fun _ => length_of_mem_vectors

theorem length_of_mem_writtenMemory {words : Nat} {e : Engine}
    (h : ∀ line ∈ e.memory, line.length = words) :
    ∀ line ∈ e.writtenMemory words, line.length = words := by
  intro line hline
  rw [writtenMemory] at hline
  split at hline
  · rcases List.mem_append.1 hline with hnew | hold
    · exact length_of_mem_writtenLines line hnew
    · exact h line (List.mem_of_mem_drop hold)
  · exact h line hline

theorem length_of_mem_usedMemory {words : Nat} {e : Engine}
    (h : ∀ line ∈ e.memory, line.length = words) :
    ∀ line ∈ e.usedMemory words, line.length = words := by
  intro line hline
  rw [usedMemory] at hline
  split at hline
  · rcases List.mem_append.1 hline with hheld | hgrown
    · exact length_of_mem_writtenMemory h line hheld
    · rw [List.eq_of_mem_replicate hgrown, List.length_replicate]
  · exact length_of_mem_writtenMemory h line hline

end Engine

namespace Slot

structure Consistent (config : AfuConfig) (s : Slot) : Prop where
  streams_running : s.StreamsEnabled
  running_started : s.running = true → s.engine.started = true
  busy_le : s.engine.busy ≤ config.busyPolls
  whole : ∀ line ∈ s.engine.memory, line.length = config.lineWords
  untouched : s.engine.started = false → s.engine.Untouched

theorem consistent_idle (config : AfuConfig) : Consistent config idle where
  streams_running h := absurd h Bool.false_ne_true
  running_started h := absurd h Bool.false_ne_true
  busy_le := Nat.zero_le _
  whole _ h := absurd h List.not_mem_nil
  untouched _ := ⟨rfl, rfl, rfl, rfl, rfl, rfl, rfl⟩

variable {config : AfuConfig} {s : Slot}

theorem consistent_start (hv : config.Valid) (h : s.Consistent config) :
    Consistent config ⟨(s.engine.start config).1, true⟩ := by
  cases hendless : s.engine.unlimited with
  | true =>
    rw [Engine.start_unlimited hendless]
    exact ⟨fun _ => rfl, fun _ => rfl, h.busy_le, h.whole, fun h => absurd h (by simp)⟩
  | false =>
    rw [Engine.start_finite hv hendless]
    exact ⟨fun _ => rfl, fun _ => rfl, Nat.le_refl _, Engine.length_of_mem_usedMemory h.whole,
      fun h => absurd h (by simp)⟩

theorem Consistent.setInputs (h : s.Consistent config) (readWord writeWord seed : UInt64)
    (stalled corrupt : Bool) :
    Consistent config ⟨{ s.engine with readWord, writeWord, seed, stalled, corrupt }, s.running⟩ := by
  refine ⟨h.streams_running, h.running_started, h.busy_le, h.whole, ?_⟩
  intro hstarted
  obtain ⟨hstreaming, hbusy, hmemory, hbursts, hreads, hwrites, hhash⟩ := h.untouched hstarted
  exact ⟨hstreaming, hbusy, hmemory, hbursts, hreads, hwrites, hhash⟩

theorem consistent_apply (hv : config.Valid) (h : s.Consistent config) (event : Event) :
    (s.apply config event).Consistent config := by
  have hstreams : (s.apply config event).StreamsEnabled :=
    streamsEnabled_apply h.streams_running event
  cases event with
  | tick =>
    refine ⟨hstreams, ?_, ?_, ?_, ?_⟩
    · rw [apply, Engine.started_tick]
      exact h.running_started
    · exact Nat.le_trans (Engine.busy_tick_le _) h.busy_le
    · rw [apply, Engine.memory_tick]
      exact h.whole
    · intro hstarted
      rw [apply, Engine.started_tick] at hstarted
      rw [apply, (h.untouched hstarted).tick]
      exact h.untouched hstarted
  | enable =>
    rw [apply]
    split
    · exact h
    · exact consistent_start hv h
  | disable =>
    refine ⟨hstreams, fun hrun => absurd hrun Bool.false_ne_true, ?_, ?_, ?_⟩
    · rw [apply, Engine.stop]
      split
      · exact Nat.le_refl _
      · exact h.busy_le
    · rw [apply, Engine.memory_stop]
      exact h.whole
    · intro hstarted
      rw [apply, Engine.started_stop] at hstarted
      have huntouched := h.untouched hstarted
      rw [apply, Engine.stop, huntouched.streaming]
      exact huntouched
  | write reg value =>
    obtain ⟨readWord, writeWord, seed, hwrite⟩ := s.engine.writeRegister_eq reg value
    rw [apply, hwrite]
    exact h.setInputs readWord writeWord seed _ _
  | stall on => exact h.setInputs _ _ _ on _
  | corrupt on => exact h.setInputs _ _ _ _ on

theorem consistent_run (hv : config.Valid) (h : s.Consistent config) (events : List Event) :
    (s.run config events).Consistent config := by
  induction events generalizing s with
  | nil => exact h
  | cons event events ih => exact ih (consistent_apply hv h event)

theorem started_apply (hv : config.Valid) (h : s.Consistent config) (event : Event) :
    (s.apply config event).engine.started = true ↔ s.engine.started = true ∨ event = .enable := by
  cases event with
  | tick => simp [apply, Engine.started_tick]
  | enable =>
    have hstarted : (s.apply config .enable).engine.started = true := by
      rw [apply]
      split
      · exact h.running_started ‹_›
      · exact (consistent_start hv h).running_started rfl
    simp [hstarted]
  | disable => simp [apply, Engine.started_stop]
  | write reg value =>
    obtain ⟨readWord, writeWord, seed, hwrite⟩ := s.engine.writeRegister_eq reg value
    simp [apply, hwrite]
  | stall on => simp [apply]
  | corrupt on => simp [apply]

theorem started_run (hv : config.Valid) (h : s.Consistent config) (events : List Event) :
    (s.run config events).engine.started = true ↔
      s.engine.started = true ∨ .enable ∈ events := by
  induction events generalizing s with
  | nil => simp [run]
  | cons event events ih =>
    change ((s.apply config event).run config events).engine.started = true ↔ _
    rw [ih (consistent_apply hv h event), started_apply hv h, List.mem_cons, or_assoc,
      eq_comm (a := event)]

end Slot

theorem Activity.ofWord_statusWord (c : Capabilities) (activity : Activity) :
    ofWord (statusWord c activity) = activity := by
  have hreset : Word.bit (statusWord c activity) 32 = activity.inReset := by
    rw [Capabilities.bit_statusWord _ _ (by decide)]
    simp
  have hrunning : Word.bit (statusWord c activity) 33 = activity.running := by
    rw [Capabilities.bit_statusWord _ _ (by decide)]
    simp
  have hactive : Word.bit (statusWord c activity) 34 = activity.active := by
    rw [Capabilities.bit_statusWord _ _ (by decide)]
    simp
  have hwait : Word.bit (statusWord c activity) 40 = activity.waitRequest := by
    rw [Capabilities.bit_statusWord _ _ (by decide)]
    simp
  rw [ofWord, hreset, hrunning, hactive, hwait]

namespace Afu

def Enables (eng : Nat) (ops : List Operation) : Prop :=
  ∃ mask, .write (8 * Register.enableMask) mask ∈ ops ∧ Word.bit mask eng = true

theorem enable_mem_events_iff {engines eng : Nat} {ops : List Operation} :
    .enable ∈ Slot.events engines eng ops ↔ Enables eng ops := by
  rw [Slot.events, List.mem_filterMap]
  constructor
  · rintro ⟨op, hop, hevent⟩
    cases op with
    | read offset =>
      rw [Slot.event?] at hevent
      split at hevent <;> exact absurd hevent (by simp)
    | write offset value =>
      by_cases hoff : offset = 8 * Register.enableMask
      · subst hoff
        rw [event?_enableMask] at hevent
        split at hevent
        · exact ⟨value, hop, ‹_›⟩
        · exact absurd hevent (by simp)
      · exact absurd hevent (event?_ne_enable hoff)
    | stall e on =>
      rw [Slot.event?] at hevent
      split at hevent <;> exact absurd hevent (by simp)
    | corrupt e on =>
      rw [Slot.event?] at hevent
      split at hevent <;> exact absurd hevent (by simp)
  · rintro ⟨mask, hop, hbit⟩
    refine ⟨_, hop, ?_⟩
    rw [event?_enableMask, if_pos hbit]

def readStatus (eng : Nat) (a : Afu) : Except AccessError UInt64 :=
  (a.read (8 * Register.engineIndex eng Register.status)).1

structure Coherent (config : AfuConfig) (eng : Nat) (e : Engine) (a : Afu) : Prop where
  streaming_enabled : e.streaming = true → Word.bit a.enabled eng = true
  enabled_started : Word.bit a.enabled eng = true → e.started = true
  inReset : ∀ word, a.readStatus eng = .ok word → (Activity.ofWord word).inReset = true →
    (Activity.ofWord word).running = false ∧ (Activity.ofWord word).active = false
  busy_le : e.busy ≤ config.busyPolls
  memory : config.lineWords ∣ e.memory.flatten.length

structure InReset (eng : Nat) (e : Engine) (a : Afu) : Prop where
  inactive : Word.bit a.activeMask eng = false
  status : ∃ word, a.readStatus eng = .ok word ∧ (Activity.ofWord word).inReset = true
  registers : ∀ reg ∈ Engine.countersAndHash, (a.read (8 * Register.engineIndex eng reg)).1 = .ok 0
  memory : e.memory = []

theorem Reachable.consistent {config : AfuConfig} {a : Afu} (hv : config.Valid)
    (ha : Reachable config a) {eng : Nat} {s : Slot} (hs : a.slot? eng = some s) :
    s.Consistent config.clamp := by
  have heng : eng < config.clamp.engines := by
    rw [← (ha.fixed hv).length_eq]
    exact (List.getElem?_eq_some_iff.1 (slot?_eq_some_iff.1 hs).1).1
  obtain ⟨events, hslot⟩ := ha.slot? hv heng
  obtain rfl := Option.some.inj (hslot.symm.trans hs)
  exact Slot.consistent_run (AfuConfig.clamp_valid hv) (Slot.consistent_idle config.clamp) events

variable {config : AfuConfig} {a : Afu} {eng : Nat} {s : Slot}

theorem readStatus_eq (ha : Sound config a) (hs : a.slot? eng = some s) :
    a.readStatus eng = .ok (s.engine.status config s.running) := by
  rw [readStatus, read_word, readWord_engine hs ha.length_le (by decide), ha.config_eq]
  rfl

theorem bit_activeMask_slot (ha : Sound config a) (hs : a.slot? eng = some s) :
    Word.bit a.activeMask eng = s.engine.active := by
  rw [bit_activeMask ha.length_le, (slot?_eq_some_iff.1 hs).1, Option.any_some]

theorem coherent_of_consistent (ha : Sound config a) (hs : a.slot? eng = some s)
    (h : s.Consistent config) : Coherent config eng s.engine a where
  streaming_enabled hstreaming :=
    (slot?_eq_some_iff.1 hs).2.trans (h.streams_running hstreaming)
  enabled_started henabled :=
    h.running_started ((slot?_eq_some_iff.1 hs).2.symm.trans henabled)
  inReset word hword hreset := by
    rw [readStatus_eq ha hs, Except.ok.injEq] at hword
    rw [← hword, Engine.status, Activity.ofWord_statusWord] at hreset ⊢
    have hstarted : s.engine.started = false := by simpa using hreset
    refine ⟨?_, (h.untouched hstarted).inactive hstarted⟩
    by_contra hrunning
    rw [h.running_started (by simpa using hrunning)] at hstarted
    exact absurd hstarted (by simp)
  busy_le := h.busy_le
  memory := by
    rw [length_flatten_of_forall h.whole]
    exact Nat.dvd_mul_right _ _

theorem inReset_of_consistent (ha : Sound config a) (hs : a.slot? eng = some s)
    (h : s.Consistent config) (hstarted : s.engine.started = false) :
    InReset eng s.engine a where
  inactive := by
    rw [bit_activeMask_slot ha hs]
    exact (h.untouched hstarted).inactive hstarted
  status := by
    refine ⟨_, readStatus_eq ha hs, ?_⟩
    rw [Engine.status, Activity.ofWord_statusWord, hstarted]
    rfl
  registers reg hreg := by
    have hmap : ∀ reg ∈ Engine.countersAndHash, reg < Register.perEngine := by decide
    rw [read_word, readWord_engine hs ha.length_le (hmap reg hreg),
      (h.untouched hstarted).readRegister _ _ reg hreg]
  memory := (h.untouched hstarted).memory

theorem lt_of_bit_mask (ha : Sound config a) {mask : UInt64}
    (hmask : (a.read (8 * Register.runMask)).1 = .ok mask ∨
      (a.read (8 * Register.activeMask)).1 = .ok mask) {i : Nat} (hi : Word.bit mask i = true) :
    i < config.engines := by
  rcases hmask with hrun | hactive
  · rw [read_word, Except.ok.injEq] at hrun
    exact ha.mask i (by rw [← hi, ← hrun]; rfl)
  · rw [read_word, Except.ok.injEq] at hactive
    have hbit : a.engines[i]?.any Engine.active = true := by
      rw [← bit_activeMask ha.length_le, ← hi, ← hactive]
      rfl
    by_contra hge
    rw [List.getElem?_eq_none (by rw [ha.length_eq]; omega)] at hbit
    exact absurd hbit (by simp)

/-- In every state that a device comes into, the masks name implemented engines only, every engine is
coherent, and an engine that no operation has enabled is still in reset. -/
theorem coherent_run (hv : config.Valid) (ops : List Operation) :
    ((new config).run ops).engines.length = min config.engines 16 ∧
      (∀ mask, (((new config).run ops).read (8 * Register.runMask)).1 = .ok mask ∨
          (((new config).run ops).read (8 * Register.activeMask)).1 = .ok mask →
        ∀ i, Word.bit mask i = true → i < min config.engines 16) ∧
      ∀ eng e, ((new config).run ops).engines[eng]? = some e →
        Coherent config eng e ((new config).run ops) ∧
          (e.started = true ↔ Enables eng ops) ∧
          (¬ Enables eng ops → InReset eng e ((new config).run ops)) := by
  have hclamp := AfuConfig.clamp_valid hv
  have ha : Sound config.clamp ((new config).run ops) := Reachable.sound hv ⟨ops, rfl⟩
  refine ⟨ha.length_eq, fun mask hmask i hi => lt_of_bit_mask ha hmask hi, ?_⟩
  intro eng e he
  have heng : eng < config.clamp.engines := by
    rw [← ha.length_eq]
    exact (List.getElem?_eq_some_iff.1 he).1
  have hidle := Slot.consistent_idle config.clamp
  have hslot := slot?_run hclamp config.clamp_engines_le (fixed_new config) heng ops
  rw [slot?_new heng, Option.map_some] at hslot
  have hconsistent := Slot.consistent_run hclamp hidle (Slot.events config.clamp.engines eng ops)
  have hstarted := Slot.started_run hclamp hidle (Slot.events config.clamp.engines eng ops)
  obtain rfl : (Slot.idle.run config.clamp (Slot.events config.clamp.engines eng ops)).engine = e :=
    Option.some.inj ((slot?_eq_some_iff.1 hslot).1.symm.trans he)
  have hhistory : (Slot.idle.run config.clamp
      (Slot.events config.clamp.engines eng ops)).engine.started = true ↔ Enables eng ops := by
    rw [hstarted, ← enable_mem_events_iff]
    exact or_iff_right Bool.false_ne_true
  have hcoherent := coherent_of_consistent ha hslot hconsistent
  refine ⟨⟨hcoherent.streaming_enabled, hcoherent.enabled_started, hcoherent.inReset,
    hcoherent.busy_le, hcoherent.memory⟩, hhistory, ?_⟩
  intro hnever
  exact inReset_of_consistent ha hslot hconsistent (eq_false_of_ne_true (mt hhistory.1 hnever))

/-- Engine 0 streams; engine 1 is stalled, and set up for a run that is never enabled. -/
def streamingRun : List Operation :=
  [.write (8 * Register.engineIndex 0 Register.readTraffic) (Burst.toWord ⟨true, 0, 4⟩),
    .write (8 * Register.engineIndex 1 Register.writeTraffic) (Burst.toWord ⟨true, 2, 4⟩),
    .stall 1 true, .write (8 * Register.enableMask) 5, .read (8 * Register.activeMask)]

theorem coherent_run_streaming :
    AfuConfig.standard.Valid ∧ ¬ Enables 1 streamingRun ∧
      ∃ e f, ((new .standard).run streamingRun).engines = [e, f] ∧ e.streaming = true ∧
        Word.bit ((new .standard).run streamingRun).enabled 0 = true ∧ e.started = true ∧
        Coherent .standard 0 e ((new .standard).run streamingRun) ∧
        InReset 1 f ((new .standard).run streamingRun) := by
  have hv : AfuConfig.standard.Valid := by decide
  have hnever : ¬ Enables 1 streamingRun := by
    rintro ⟨mask, hmem, hbit⟩
    have hregisters : ∀ eng < 2, ∀ reg < 2,
        8 * Register.enableMask ≠ 8 * Register.engineIndex eng reg := by decide
    have hmask : mask = 5 := by
      simpa [streamingRun, hregisters 0 (by decide) Register.readTraffic (by decide),
        hregisters 1 (by decide) Register.writeTraffic (by decide)] using hmem
    rw [hmask] at hbit
    exact absurd hbit (by decide)
  obtain ⟨_, _, hall⟩ := coherent_run hv streamingRun
  refine ⟨hv, hnever, _, _, rfl, rfl, rfl, rfl, (hall 0 _ rfl).1, (hall 1 _ rfl).2.2 hnever⟩

end Afu

end AfuBench
