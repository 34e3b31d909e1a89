import AfuBench.Proofs.CycleCount
import AfuBench.Proofs.EngineIsolation

namespace AfuBench

theorem Engine.stalled_stop (config : AfuConfig) (e : Engine) :
    (e.stop config).stalled = e.stalled := by
  rw [stop]
  split <;> rfl

namespace Slot

variable {config : AfuConfig} {reading writing : Burst} {n left : Nat} {counts : Nat × Nat × Nat}
  {s : Slot}

def Event.Disturbs : Event → Prop
  | .disable => True
  | .write reg _ => reg = Register.readTraffic ∨ reg = Register.writeTraffic
  | _ => False

def burstCounters (reading writing : Burst) (n : Nat) : Nat × Nat × Nat :=
  (n * reading.enabled.toNat, n * reading.burstLines, n * writing.burstLines)

theorem burstCounters_succ (reading writing : Burst) (n : Nat) :
    burstCounters reading writing (n + 1) =
      ((burstCounters reading writing n).1 + reading.enabled.toNat,
        (burstCounters reading writing n).2.1 + reading.burstLines,
        (burstCounters reading writing n).2.2 + writing.burstLines) := by
  simp only [burstCounters, Nat.succ_mul]

structure Streams (reading writing : Burst) (n : Nat) (s : Slot) : Prop where
  running : s.running = true
  started : s.engine.started = true
  streaming : s.engine.streaming = true
  reading_eq : s.engine.reading = reading
  writing_eq : s.engine.writing = writing
  counters : s.engine.counters = burstCounters reading writing n

theorem streams_enable (hstopped : s.running = false) (hendless : s.engine.unlimited = true) :
    Streams s.engine.reading s.engine.writing 1 (s.apply config .enable) := by
  rw [apply, if_neg (by rw [hstopped]; exact Bool.false_ne_true), Engine.start_unlimited hendless]
  refine ⟨rfl, rfl, rfl, rfl, rfl, ?_⟩
  simp only [burstCounters, Nat.one_mul]
  rfl

theorem Streams.tick (h : s.Streams reading writing n) :
    (s.apply config .tick).Streams reading writing (n + 1) := by
  rw [apply, Engine.tick, if_pos h.streaming]
  refine ⟨h.running, h.started, h.streaming, h.reading_eq, h.writing_eq, ?_⟩
  rw [burstCounters_succ, ← h.counters, ← h.reading_eq, ← h.writing_eq]
  rfl

theorem Streams.apply (h : s.Streams reading writing n) {event : Event} (hevent : ¬ event.Disturbs) :
    (s.apply config event).Streams reading writing (n + [event].count .tick) := by
  cases event with
  | tick => exact h.tick
  | enable =>
    rw [Slot.apply, if_pos h.running]
    exact h
  | disable => exact absurd trivial hevent
  | write reg value =>
    obtain ⟨hread, hwrite⟩ := not_or.1 hevent
    rw [Slot.apply, Engine.writeRegister, if_neg hread, if_neg hwrite]
    split
    · exact ⟨h.running, h.started, h.streaming, h.reading_eq, h.writing_eq, h.counters⟩
    · exact h
  | stall on => exact ⟨h.running, h.started, h.streaming, h.reading_eq, h.writing_eq, h.counters⟩
  | corrupt on => exact ⟨h.running, h.started, h.streaming, h.reading_eq, h.writing_eq, h.counters⟩

theorem Streams.run (h : s.Streams reading writing n) {events : List Event}
    (hevents : ∀ event ∈ events, ¬ event.Disturbs) :
    (s.run config events).Streams reading writing (n + events.count .tick) := by
  induction events generalizing s n with
  | nil => exact h
  | cons event events ih =>
    have hnext : (s.apply config event).Streams reading writing _ :=
      h.apply (hevents event List.mem_cons_self)
    have hrest := ih hnext fun later hlater => hevents later (List.mem_cons_of_mem event hlater)
    rw [← List.singleton_append, List.count_append, ← Nat.add_assoc]
    exact hrest

theorem Streams.activeAtTicks (h : s.Streams reading writing n) {events : List Event}
    (hevents : ∀ event ∈ events, ¬ event.Disturbs) :
    s.activeAtTicks config events = List.replicate (events.count .tick) true := by
  induction events generalizing s n with
  | nil => rfl
  | cons event events ih =>
    have hnext : (s.apply config event).Streams reading writing _ :=
      h.apply (hevents event List.mem_cons_self)
    have hrest := ih hnext fun later hlater => hevents later (List.mem_cons_of_mem event hlater)
    rw [Slot.activeAtTicks, hrest, ← List.singleton_append, List.count_append]
    cases event with
    | tick =>
      have hactive : s.engine.active = true := by
        rw [Engine.active, h.streaming, Bool.true_or, Bool.true_or]
      rw [activeAt?, hactive, ← List.replicate_append_replicate]
      rfl
    | _ => exact congrArg (List.replicate · true) (Nat.zero_add _).symm

structure Drains (counts : Nat × Nat × Nat) (left : Nat) (s : Slot) : Prop where
  started : s.engine.started = true
  streaming : s.engine.streaming = false
  busy : s.engine.busy = left
  counters : s.engine.counters = counts

theorem Streams.disable (h : s.Streams reading writing n) :
    (s.apply config .disable).Drains (burstCounters reading writing n) config.busyPolls := by
  rw [Slot.apply, Engine.stop, if_pos h.streaming]
  exact ⟨h.started, rfl, rfl, h.counters⟩

theorem Drains.active (h : s.Drains counts left) :
    s.engine.active = (decide (0 < left) || s.engine.stalled) := by
  rw [Engine.active, h.streaming, h.busy, h.started, Bool.false_or, Bool.and_true]

theorem Drains.apply (h : s.Drains counts left) {event : Event} (hevent : event ≠ .enable) :
    (s.apply config event).Drains counts (left - [event].count .tick) := by
  cases event with
  | tick =>
    rw [Slot.apply, Engine.tick_eq_rest h.streaming]
    exact ⟨h.started, h.streaming, congrArg (· - 1) h.busy, h.counters⟩
  | enable => exact absurd rfl hevent
  | disable =>
    rw [Slot.apply, Engine.stop, if_neg (by rw [h.streaming]; exact Bool.false_ne_true)]
    exact ⟨h.started, h.streaming, h.busy, h.counters⟩
  | write reg value =>
    obtain ⟨readWord, writeWord, seed, hwrite⟩ := s.engine.writeRegister_eq reg value
    rw [Slot.apply, hwrite]
    exact ⟨h.started, h.streaming, h.busy, h.counters⟩
  | stall on => exact ⟨h.started, h.streaming, h.busy, h.counters⟩
  | corrupt on => exact ⟨h.started, h.streaming, h.busy, h.counters⟩

theorem Drains.run (h : s.Drains counts left) {events : List Event} (hevents : .enable ∉ events) :
    (s.run config events).Drains counts (left - events.count .tick) := by
  induction events generalizing s left with
  | nil => exact h
  | cons event events ih =>
    rw [List.mem_cons, not_or] at hevents
    have hnext : (s.apply config event).Drains counts _ := h.apply (Ne.symm hevents.1)
    have hrest := ih hnext hevents.2
    rw [← List.singleton_append, List.count_append, ← Nat.sub_sub]
    exact hrest

theorem Drains.unstalled (h : s.Drains counts left) (hfree : s.engine.stalled = false)
    {event : Event} (henable : event ≠ .enable) (hstall : event ≠ .stall true) :
    (s.apply config event).engine.stalled = false := by
  cases event with
  | tick =>
    rw [Slot.apply, Engine.tick_eq_rest h.streaming]
    exact hfree
  | enable => exact absurd rfl henable
  | disable =>
    rw [Slot.apply, Engine.stop, if_neg (by rw [h.streaming]; exact Bool.false_ne_true)]
    exact hfree
  | write reg value =>
    obtain ⟨readWord, writeWord, seed, hwrite⟩ := s.engine.writeRegister_eq reg value
    rw [Slot.apply, hwrite]
    exact hfree
  | stall on => exact eq_false_of_ne_true fun hon => hstall (congrArg Event.stall hon)
  | corrupt on => exact hfree

theorem Drains.activeAtTicks (h : s.Drains counts left) (hfree : s.engine.stalled = false)
    {events : List Event} (henable : .enable ∉ events) (hstall : .stall true ∉ events) :
    s.activeAtTicks config events =
      (List.range (events.count .tick)).map fun i => decide (i < left) := by
  induction events generalizing s left with
  | nil => rfl
  | cons event events ih =>
    rw [List.mem_cons, not_or] at henable hstall
    have hnext : (s.apply config event).Drains counts _ := h.apply (Ne.symm henable.1)
    have hrest := ih hnext (h.unstalled hfree (Ne.symm henable.1) (Ne.symm hstall.1)) henable.2
      hstall.2
    rw [Slot.activeAtTicks, hrest]
    cases event with
    | tick =>
      have hcount : (Event.tick :: events).count .tick = events.count .tick + 1 :=
        List.count_cons_self
      rw [activeAt?, h.active, hfree, hcount, List.range_succ_eq_map, List.map_cons, List.map_map,
        Bool.or_false]
      refine congrArg (_ :: ·) (List.map_congr_left fun i _ => ?_)
      exact decide_eq_decide.2 Nat.lt_sub_iff_add_lt
    | _ => rfl

inductive Means (eng : Nat) : Afu.Operation → Event → Prop
  | tick : Means eng (.read (8 * Register.activeMask)) .tick
  | enable {mask} (selects : Word.bit mask eng = true) :
      Means eng (.write (8 * Register.enableMask) mask) .enable
  | disable {mask} (selects : Word.bit mask eng = true) :
      Means eng (.write (8 * Register.disableMask) mask) .disable
  | write (reg value) :
      Means eng (.write (8 * Register.engineIndex eng reg) value) (.write reg value)
  | stall (on) : Means eng (.stall eng on) (.stall on)
  | corrupt (on) : Means eng (.corrupt eng on) (.corrupt on)

theorem means_of_event? {engines eng : Nat} (hlen : engines ≤ Register.maxEngines)
    {op : Afu.Operation} {event : Event} (h : event? engines eng op = some event) :
    Means eng op event := by
  cases op with
  | read offset =>
    simp only [event?, Option.ite_none_right_eq_some, Option.some.injEq] at h
    obtain ⟨rfl, rfl⟩ := h
    exact .tick
  | stall e on =>
    simp only [event?, Option.ite_none_right_eq_some, Option.some.injEq] at h
    obtain ⟨rfl, rfl⟩ := h
    exact .stall on
  | corrupt e on =>
    simp only [event?, Option.ite_none_right_eq_some, Option.some.injEq] at h
    obtain ⟨rfl, rfl⟩ := h
    exact .corrupt on
  | write offset value =>
    by_cases halign : offset % 8 = 0
    · obtain ⟨index, rfl⟩ : ∃ index, offset = 8 * index := ⟨offset / 8, by omega⟩
      rw [event?_write] at h
      cases htarget : Register.target engines index with
      | enable =>
        simp only [htarget, Option.ite_none_right_eq_some, Option.some.injEq] at h
        obtain ⟨hbit, rfl⟩ := h
        rw [Register.target_eq_enable_iff.1 htarget]
        exact .enable hbit
      | disable =>
        simp only [htarget, Option.ite_none_right_eq_some, Option.some.injEq] at h
        obtain ⟨hbit, rfl⟩ := h
        rw [Register.target_eq_disable_iff.1 htarget]
        exact .disable hbit
      | engine e reg =>
        simp only [htarget, Option.ite_none_right_eq_some, Option.some.injEq] at h
        obtain ⟨rfl, rfl⟩ := h
        obtain ⟨_, _, rfl⟩ := (Register.target_eq_engine_iff hlen).1 htarget
        exact .write reg value
      | shared reg => simp [htarget] at h
      | readOnly => simp [htarget] at h
    · rw [event?, if_pos halign] at h
      exact absurd h (by simp)

theorem mem_events {engines eng : Nat} (hlen : engines ≤ Register.maxEngines)
    {ops : List Afu.Operation} {event : Event} (h : event ∈ events engines eng ops) :
    ∃ op ∈ ops, Means eng op event := by
  obtain ⟨op, hop, hevent⟩ := List.mem_filterMap.1 h
  exact ⟨op, hop, means_of_event? hlen hevent⟩

theorem count_tick_events {engines eng : Nat} (hlen : engines ≤ Register.maxEngines)
    (ops : List Afu.Operation) :
    (events engines eng ops).count .tick = ops.count (.read (8 * Register.activeMask)) := by
  induction ops with
  | nil => rfl
  | cons op ops ih =>
    rw [events, List.filterMap_cons, ← events]
    by_cases hop : op = .read (8 * Register.activeMask)
    · rw [hop, List.count_cons_self, ← ih]
      exact List.count_cons_self
    · rw [List.count_cons_of_ne hop, ← ih]
      cases hevent : event? engines eng op with
      | none => rfl
      | some event =>
        refine List.count_cons_of_ne ?_
        rintro rfl
        cases means_of_event? hlen hevent
        exact hop rfl

end Slot

namespace Afu

structure LeavesRun (eng : Nat) (op : Operation) : Prop where
  enabled : ∀ mask, op = .write (8 * Register.disableMask) mask → Word.bit mask eng = false
  reading : ∀ value, op ≠ .write (8 * Register.engineIndex eng Register.readTraffic) value
  writing : ∀ value, op ≠ .write (8 * Register.engineIndex eng Register.writeTraffic) value

theorem LeavesRun.not_disturbs {eng : Nat} {op : Operation} (h : LeavesRun eng op)
    {event : Slot.Event} (hmeans : Slot.Means eng op event) : ¬ event.Disturbs := by
  intro hdisturbs
  cases hmeans with
  | disable hbit => exact absurd hbit (by rw [h.enabled _ rfl]; exact Bool.false_ne_true)
  | write reg value =>
    rcases hdisturbs with rfl | rfl
    · exact h.reading value rfl
    · exact h.writing value rfl
  | _ => exact hdisturbs

structure Streamed (eng : Nat) (e : Engine) (n : Nat) (a : Afu) : Prop where
  counters : a.engines[eng]?.map Engine.counters =
    some (if e.reading.enabled then n else 0, if e.reading.enabled then n * e.reading.size else 0,
      if e.writing.enabled then n * e.writing.size else 0)
  readBursts : (a.read (8 * Register.engineIndex eng Register.readBursts)).1 =
    .ok (UInt64.ofNat (if e.reading.enabled then n else 0))
  readLines : (a.read (8 * Register.engineIndex eng Register.readLines)).1 =
    .ok (UInt64.ofNat (if e.reading.enabled then n * e.reading.size else 0))
  writeLines : (a.read (8 * Register.engineIndex eng Register.writeLines)).1 =
    .ok (UInt64.ofNat (if e.writing.enabled then n * e.writing.size else 0))

section

variable {config : AfuConfig} {a b : Afu} {eng n : Nat} {e : Engine} {s : Slot}

theorem streamed_of_slot? (ha : Sound config a) (hs : a.slot? eng = some s)
    (hcounters : s.engine.counters = Slot.burstCounters e.reading e.writing n) :
    Streamed eng e n a := by
  have hbursts : n * e.reading.enabled.toNat = if e.reading.enabled then n else 0 := by
    cases e.reading.enabled with
    | true => exact Nat.mul_one n
    | false => exact Nat.mul_zero n
  have hlines : ∀ b : Burst, n * b.burstLines = if b.enabled then n * b.size else 0 := by
    intro b
    rw [Burst.burstLines]
    split
    · rfl
    · exact Nat.mul_zero n
  rw [Slot.burstCounters, hbursts, hlines, hlines] at hcounters
  have hshown : ∀ reg < Register.perEngine, (a.read (8 * Register.engineIndex eng reg)).1 =
      .ok (s.engine.readRegister config s.running reg) := by
    intro reg hreg
    rw [read_word, readWord_engine hs ha.length_le hreg, ha.config_eq]
  obtain ⟨hread, hreadLines, hwriteLines⟩ :
      s.engine.readBursts = _ ∧ s.engine.readLines = _ ∧ s.engine.writeLines = _ := by
    simpa only [Engine.counters, Prod.mk.injEq] using hcounters
  refine ⟨?_, ?_, ?_, ?_⟩
  · rw [(slot?_eq_some_iff.1 hs).1, Option.map_some, hcounters]
  · rw [hshown _ (by decide), ← hread]
    rfl
  · rw [hshown _ (by decide), ← hreadLines]
    rfl
  · rw [hshown _ (by decide), ← hwriteLines]
    rfl

def polls (ops : List Operation) : Nat :=
  ops.count (.read (8 * Register.activeMask))

theorem Sound.apply (ha : Sound config a) (op : Operation) : Sound config (a.apply op) where
  toFixed := fixed_apply ha.valid ha.few ha.toFixed op
  valid := ha.valid
  few := ha.few

theorem Sound.run (ha : Sound config a) (ops : List Operation) : Sound config (a.run ops) where
  toFixed := fixed_run ha.valid ha.few ha.toFixed ops
  valid := ha.valid
  few := ha.few

theorem Sound.slot?_apply (ha : Sound config a) (heng : eng < config.engines)
    (hs : a.slot? eng = some s) {op : Operation} {event : Slot.Event}
    (hevent : Slot.event? config.engines eng op = some event) :
    (a.apply op).slot? eng = some (s.apply config event) := by
  have hstep := Afu.slot?_apply (by rw [ha.config_eq]; exact ha.valid) ha.length_le
    (by rw [ha.length_eq]; exact heng) op
  rw [hstep, hs, ha.length_eq, ha.config_eq, hevent]
  rfl

theorem Sound.slot?_run (ha : Sound config a) (heng : eng < config.engines)
    (hs : a.slot? eng = some s) (ops : List Operation) :
    (a.run ops).slot? eng = some (s.run config (Slot.events config.engines eng ops)) := by
  rw [Afu.slot?_run ha.valid ha.few ha.toFixed heng, hs, Option.map_some]

theorem Sound.activeBits_eq (ha : Sound config a) (heng : eng < config.engines)
    (hs : a.slot? eng = some s) (ops : List Operation) :
    activeBits eng a ops = s.activeAtTicks config (Slot.events config.engines eng ops) :=
  Afu.activeBits_eq ha.valid ha.few heng ha.toFixed hs ops

theorem streams_run {reading writing : Burst} (ha : Sound config a) (heng : eng < config.engines)
    (hs : a.slot? eng = some s) (h : s.Streams reading writing n) {ops : List Operation}
    (hops : ∀ op ∈ ops, LeavesRun eng op) :
    (∃ t, (a.run ops).slot? eng = some t ∧ t.Streams reading writing (n + polls ops)) ∧
      activeBits eng a ops = List.replicate (polls ops) true := by
  have hevents : ∀ event ∈ Slot.events config.engines eng ops, ¬ event.Disturbs := by
    intro event hmem
    obtain ⟨op, hop, hmeans⟩ := Slot.mem_events ha.few hmem
    exact (hops op hop).not_disturbs hmeans
  have hcount : (Slot.events config.engines eng ops).count .tick = polls ops :=
    Slot.count_tick_events ha.few ops
  rw [← hcount]
  refine ⟨⟨_, ha.slot?_run heng hs ops, h.run hevents⟩, ?_⟩
  rw [ha.activeBits_eq heng hs, h.activeAtTicks hevents]

theorem drains_run {counts : Nat × Nat × Nat} (ha : Sound config a) (heng : eng < config.engines)
    (hs : a.slot? eng = some s) (h : s.Drains counts n) {ops : List Operation}
    (hops : ¬ Enables eng ops) :
    (∃ t, (a.run ops).slot? eng = some t ∧ t.Drains counts (n - polls ops)) ∧
      (s.engine.stalled = false → .stall eng true ∉ ops →
        activeBits eng a ops = (List.range (polls ops)).map fun i => decide (i < n)) := by
  have henable : .enable ∉ Slot.events config.engines eng ops := fun hmem =>
    hops (enable_mem_events_iff.1 hmem)
  have hcount : (Slot.events config.engines eng ops).count .tick = polls ops :=
    Slot.count_tick_events ha.few ops
  rw [← hcount]
  refine ⟨⟨_, ha.slot?_run heng hs ops, h.run henable⟩, ?_⟩
  intro hfree hstall
  rw [ha.activeBits_eq heng hs]
  refine h.activeAtTicks hfree henable fun hmem => hstall ?_
  obtain ⟨op, hop, hmeans⟩ := Slot.mem_events ha.few hmem
  cases hmeans
  exact hop

/-- An engine is enabled that is to move bursts without end in some direction. It has moved one burst
more than there were reads of the active mask, and every such read shows it active. From its disable
until it is enabled again its counters stand still, and a read of the active mask shows it active if
fewer such reads than the busy count have gone before, or if it is stalled. -/
theorem streaming_run (hv : config.Valid) (ha : Reachable config a) (he : a.engines[eng]? = some e)
    (hstopped : Word.bit a.enabled eng = false) (hendless : e.unlimited = true) {mask : UInt64}
    (hmask : Word.bit mask eng = true) {ops : List Operation}
    (hops : ∀ op ∈ ops, LeavesRun eng op)
    (hb : b = (a.apply (.write (8 * Register.enableMask) mask)).run ops) :
    Streamed eng e (polls ops + 1) b ∧
      activeBits eng (a.apply (.write (8 * Register.enableMask) mask)) ops =
        List.replicate (polls ops) true ∧
      ∀ off after c, Word.bit off eng = true → ¬ Enables eng after →
        c = (b.apply (.write (8 * Register.disableMask) off)).run after →
        Streamed eng e (polls ops + 1) c ∧
          c.activeBit? eng (.read (8 * Register.activeMask)) =
            some (decide (polls after < config.busyPolls) ||
              c.engines[eng]?.any Engine.stalled) ∧
          (b.engines[eng]?.any Engine.stalled = false → .stall eng true ∉ after →
            activeBits eng (b.apply (.write (8 * Register.disableMask) off)) after =
              (List.range (polls after)).map fun i => decide (i < config.busyPolls)) := by
  have hsound := ha.sound hv
  have heng : eng < config.clamp.engines := by
    rw [← hsound.length_eq]
    exact (List.getElem?_eq_some_iff.1 he).1
  have hs : a.slot? eng = some ⟨e, false⟩ := slot?_eq_some_iff.2 ⟨he, hstopped⟩
  have hon : Slot.event? config.clamp.engines eng (.write (8 * Register.enableMask) mask) =
      some .enable := by rw [event?_enableMask, if_pos hmask]
  have hstart := hsound.slot?_apply heng hs hon
  have hstarted := hsound.apply (.write (8 * Register.enableMask) mask)
  obtain ⟨⟨t, ht, hstreams⟩, hactive⟩ :=
    streams_run hstarted heng hstart (Slot.streams_enable rfl hendless) hops
  rw [← hb] at ht
  rw [Nat.add_comm 1] at hstreams
  have hb' : Sound config.clamp b := hb ▸ hstarted.run ops
  refine ⟨streamed_of_slot? hb' ht hstreams.counters, hactive, ?_⟩
  rintro off after c hoff hnever rfl
  have hdisable : Slot.event? config.clamp.engines eng (.write (8 * Register.disableMask) off) =
      some .disable := by rw [Slot.event?_disable, if_pos hoff]
  have hstop := hb'.slot?_apply heng ht hdisable
  have hstopped := hb'.apply (.write (8 * Register.disableMask) off)
  obtain ⟨⟨u, hu, hdrains⟩, hidle⟩ := drains_run hstopped heng hstop hstreams.disable hnever
  have hc := hstopped.run after
  refine ⟨streamed_of_slot? hc hu hdrains.counters, ?_, ?_⟩
  · have hleft : decide (0 < config.clamp.busyPolls - polls after) =
        decide (polls after < config.busyPolls) := decide_eq_decide.2 Nat.sub_pos_iff_lt
    rw [(slot?_eq_some_iff.1 hu).1, Option.any_some, ← hleft, ← hdrains.active]
    exact activeBit?_eq hc.length_le hu _
  · intro hfree hstall
    rw [(slot?_eq_some_iff.1 ht).1, Option.any_some] at hfree
    exact hidle ((Engine.stalled_stop _ _).trans hfree) hstall

end

/-- Engine 0 comes from a finite run that still keeps it active, and is set up to read without end
while it writes bursts of two lines. -/
def mixedSetUp : List Operation :=
  [.write (8 * Register.engineIndex 0 Register.readTraffic) (Burst.toWord ⟨true, 1, 1⟩),
    .write (8 * Register.enableMask) 1, .write (8 * Register.disableMask) 1,
    .write (8 * Register.engineIndex 0 Register.readTraffic) (Burst.toWord ⟨true, 0, 4⟩),
    .write (8 * Register.engineIndex 0 Register.writeTraffic) (Burst.toWord ⟨true, 3, 2⟩)]

/-- Engine 0 is enabled once more and given another seed, and engine 1 stalls and is disabled. -/
def mixedTraffic : List Operation :=
  [.read (8 * Register.activeMask), .write (8 * Register.enableMask) 1,
    .write (8 * Register.engineIndex 0 Register.seed) 9, .stall 1 true,
    .read (8 * Register.activeMask), .write (8 * Register.disableMask) 2,
    .read (8 * Register.runMask)]

def mixedDrain : List Operation :=
  [.read (8 * Register.activeMask), .write (8 * Register.enableMask) 2,
    .write (8 * Register.engineIndex 0 Register.readTraffic) 0, .read (8 * Register.activeMask),
    .read (8 * Register.activeMask)]

def mixedStart : Afu :=
  ((new .standard).run mixedSetUp).apply (.write (8 * Register.enableMask) 3)

theorem streaming_run_mixed :
    AfuConfig.standard.Valid ∧ ∃ e, ((new .standard).run mixedSetUp).engines[0]? = some e ∧
      e.unlimited = true ∧ e.busy = 2 ∧ Streamed 0 e 3 (mixedStart.run mixedTraffic) ∧
      activeBits 0 mixedStart mixedTraffic = [true, true] ∧
      Streamed 0 e 3 (((mixedStart.run mixedTraffic).apply
        (.write (8 * Register.disableMask) 5)).run mixedDrain) ∧
      activeBits 0 ((mixedStart.run mixedTraffic).apply (.write (8 * Register.disableMask) 5))
        mixedDrain = [true, true, false] := by
  have hv : AfuConfig.standard.Valid := by decide
  have hread : ∀ offset, LeavesRun 0 (.read offset) := fun _ => ⟨nofun, nofun, nofun⟩
  have hstall : LeavesRun 0 (.stall 1 true) := ⟨nofun, nofun, nofun⟩
  have hwrite : ∀ offset value, offset ≠ 8 * Register.engineIndex 0 Register.readTraffic →
      offset ≠ 8 * Register.engineIndex 0 Register.writeTraffic →
      (offset = 8 * Register.disableMask → Word.bit value 0 = false) →
      LeavesRun 0 (.write offset value) := by
    intro offset value hreads hwrites hdisable
    refine ⟨?_, ?_, ?_⟩
    · rintro _ ⟨⟩
      exact hdisable rfl
    · rintro _ ⟨⟩
      exact hreads rfl
    · rintro _ ⟨⟩
      exact hwrites rfl
  have hops : ∀ op ∈ mixedTraffic, LeavesRun 0 op := by
    simp only [mixedTraffic, List.forall_mem_cons]
    exact ⟨hread _, hwrite _ _ (by decide) (by decide) (by decide),
      hwrite _ _ (by decide) (by decide) (by decide), hstall, hread _,
      hwrite _ _ (by decide) (by decide) (by decide), hread _, nofun⟩
  have hnever : ¬ Enables 0 mixedDrain := by
    rw [← @enable_mem_events_iff 2]
    decide
  have hafter : mixedStart.run mixedTraffic = (((new .standard).run mixedSetUp).apply
      (.write (8 * Register.enableMask) 3)).run mixedTraffic := rfl
  obtain ⟨hrun, hactive, hstop⟩ := streaming_run (e := ((new .standard).run mixedSetUp).engines[0])
    hv ⟨mixedSetUp, rfl⟩ rfl (by decide) (by decide) (by decide) hops hafter
  obtain ⟨hdrained, _, hidle⟩ := hstop 5 mixedDrain _ (by decide) hnever rfl
  exact ⟨hv, _, rfl, by decide, by decide, hrun, hactive, hdrained,
    hidle (by decide) (by decide)⟩

end Afu

end AfuBench
