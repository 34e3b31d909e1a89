import AfuBench.Proofs.EngineInvariant

namespace AfuBench

theorem Word.and_eq_zero_of_bit {w mask : UInt64}
    (h : ∀ i < 64, bit mask i = true → bit w i = false) : w &&& mask = 0 := by
  apply eq_of_bit
  intro i hi
  rw [bit_and, bit_zero]
  cases hmask : bit mask i with
  | false => exact Bool.and_false _
  | true => rw [h i hi hmask, Bool.false_and]

namespace Engine

def Stuck (e : Engine) : Prop :=
  e.streaming = true ∨ e.stalled = true ∧ e.started = true

theorem Stuck.active {e : Engine} (h : e.Stuck) : e.active = true := by
  rw [Engine.active]
  rcases h with hstream | ⟨hstalled, hstarted⟩
  · rw [hstream, Bool.true_or, Bool.true_or]
  · rw [hstalled, hstarted, Bool.and_self, Bool.or_true]

theorem Stuck.tick {e : Engine} (h : e.Stuck) : e.tick.Stuck := by
  rw [Engine.tick]
  split
  · exact h
  · exact h

end Engine

namespace Slot

variable {config : AfuConfig} {s : Slot}

theorem stuck_ticks (h : s.engine.Stuck) (n : Nat) :
    (s.run config (List.replicate n .tick)).engine.Stuck := by
  induction n generalizing s with
  | zero => exact h
  | succ n ih => exact ih (s := s.apply config .tick) h.tick

/-- An enable sets off a finite run of the engine, and the engine is free to come to its end. -/
structure Free (s : Slot) : Prop where
  stopped : s.running = false
  unstalled : s.engine.stalled = false
  finite : s.engine.unlimited = false

def HeldUp (s : Slot) : Prop :=
  s.engine.stalled = true ∨ s.engine.streaming = true ∨
    s.running = false ∧ s.engine.unlimited = true

theorem Free.enable (hv : config.Valid) (hs : s.Consistent config) (h : s.Free) :
    ∃ e, s.apply config .enable = ⟨e, true⟩ ∧ e.streaming = false ∧ e.stalled = false ∧
      e.busy = config.busyPolls := by
  have hquiet : s.engine.streaming = false := by
    apply eq_false_of_ne_true
    intro hstream
    exact absurd (hs.streams_running hstream) (by rw [h.stopped]; exact Bool.false_ne_true)
  refine ⟨_, if_neg (by rw [h.stopped]; exact Bool.false_ne_true), ?_⟩
  rw [Engine.start_finite hv h.finite]
  exact ⟨hquiet, h.unstalled, rfl⟩

theorem HeldUp.enable (hv : config.Valid) (hs : s.Consistent config) (h : s.HeldUp) :
    (s.apply config .enable).engine.Stuck := by
  rw [apply]
  cases hrun : s.running with
  | true =>
    rw [if_pos rfl]
    rcases h with hstalled | hstream | ⟨hstopped, _⟩
    · exact .inr ⟨hstalled, hs.running_started hrun⟩
    · exact .inl hstream
    · exact absurd (hrun.symm.trans hstopped) (by decide)
  | false =>
    rw [if_neg Bool.false_ne_true]
    cases hendless : s.engine.unlimited with
    | true =>
      rw [Engine.start_unlimited hendless]
      exact .inl rfl
    | false =>
      rw [Engine.start_finite hv hendless]
      rcases h with hstalled | hstream | ⟨_, hunlimited⟩
      · exact .inr ⟨hstalled, rfl⟩
      · exact absurd (hs.streams_running hstream) (by rw [hrun]; exact Bool.false_ne_true)
      · exact absurd (hendless.symm.trans hunlimited) (by decide)

end Slot

namespace Bench

section

variable {σ : Type} [Bus σ] [Afu.Host σ] {config : AfuConfig} {a : Afu} {mask : UInt64}

theorem performs_runDone_stuck (h : Afu.Sound config a) {eng : Nat} {s : Slot}
    (heng : eng < config.engines) (hs : a.slot? eng = some s) (hmask : Word.bit mask eng = true)
    (hstuck : s.engine.Stuck) (i : Nat) :
    Performs (σ := σ) (runDone mask) (Bus.serve a (Bus.repeated i donePoll)) (.ok false)
      donePoll [] := by
  have hafter := h.slot?_of_seen heng hs (seen_donePoll config.engines eng i)
  have hactive : Word.bit (Bus.serve a (Bus.repeated i donePoll)).activeMask eng = true := by
    rw [Afu.bit_activeMask_slot (h.serve _) hafter]
    exact (Slot.stuck_ticks hstuck i).active
  have hbusy : (Bus.serve a (Bus.repeated i donePoll)).activeMask &&& mask ≠ 0 := by
    apply Word.ne_zero_of_bit (i := eng)
    rw [Word.bit_and, hactive, hmask, Bool.and_self]
  have hpoll := performs_runDone (σ := σ) mask (Bus.serve a (Bus.repeated i donePoll))
  rw [decide_eq_false fun hdone => hbusy hdone.2] at hpoll
  exact hpoll

theorem performs_runDone_busy (h : Afu.Sound config a) {n : Nat}
    (hsome : ∃ eng < config.engines, Word.bit mask eng = true)
    (hall : ∀ eng < config.engines, Word.bit mask eng = true →
      ∃ e, a.slot? eng = some ⟨e, true⟩ ∧ e.streaming = false ∧ e.stalled = false ∧ e.busy = n)
    (i : Nat) :
    Performs (σ := σ) (runDone mask) (Bus.serve a (Bus.repeated i donePoll)) (.ok (decide (n ≤ i)))
      donePoll [] := by
  have hsound := h.serve (Bus.repeated i donePoll)
  have hafter : ∀ eng < config.engines, Word.bit mask eng = true →
      Word.bit (Bus.serve a (Bus.repeated i donePoll)).enabled eng = true ∧
        Word.bit (Bus.serve a (Bus.repeated i donePoll)).activeMask eng = decide (i < n) := by
    intro eng heng hmask
    obtain ⟨e, hs, hstream, hstalled, hbusy⟩ := hall eng heng hmask
    have hslot := h.slot?_of_seen heng hs (seen_donePoll config.engines eng i)
    rw [Slot.run_ticks config hstream] at hslot
    refine ⟨(Afu.slot?_eq_some_iff.1 hslot).2, ?_⟩
    rw [Afu.bit_activeMask_slot hsound hslot]
    simp only [Engine.active, Engine.rest, hstream, hstalled, hbusy, Bool.false_or, Bool.false_and,
      Bool.or_false, Nat.sub_pos_iff_lt]
  have hfound : decide ((Bus.serve a (Bus.repeated i donePoll)).enabled ≠ 0 ∧
      (Bus.serve a (Bus.repeated i donePoll)).activeMask &&& mask = 0) = decide (n ≤ i) := by
    obtain ⟨eng, heng, hmask⟩ := hsome
    obtain ⟨hon, hactive⟩ := hafter eng heng hmask
    rw [decide_eq_decide]
    constructor
    · rintro ⟨-, hzero⟩
      have hbit := congrArg (Word.bit · eng) hzero
      simp only [Word.bit_and, Word.bit_zero, hmask, hactive, Bool.and_true] at hbit
      exact Nat.le_of_not_lt (of_decide_eq_false hbit)
    · intro hle
      refine ⟨Word.ne_zero_of_bit hon, Word.and_eq_zero_of_bit ?_⟩
      intro j _ hj
      by_cases hlt : j < config.engines
      · rw [(hafter j hlt hj).2]
        exact decide_eq_false (Nat.not_lt_of_le hle)
      · rw [Afu.bit_activeMask hsound.length_le,
          List.getElem?_eq_none (by rw [hsound.length_eq]; exact Nat.le_of_not_lt hlt)]
        rfl
  rw [← hfound]
  exact performs_runDone mask _

theorem performs_waitDone_stuck (h : Afu.Sound config a) {eng : Nat} {s : Slot}
    (heng : eng < config.engines) (hs : a.slot? eng = some s) (hmask : Word.bit mask eng = true)
    (hstuck : s.engine.Stuck) (limit : Nat) :
    Performs (σ := σ) (waitDone mask limit) a (.error (.hang (max limit 1)))
      (Bus.repeated (max limit 1) donePoll) [] := by
  have hnever : ∀ i < max limit 1, (fun _ : Nat => false) i = false := fun _ _ => rfl
  have hwait := performs_pollFrom_hang (performs_runDone_stuck (σ := σ) h heng hs hmask hstuck)
    hnever 0
  rw [Nat.zero_add] at hwait
  exact hwait

def waitAnswer (n limit : Nat) : Except BenchError Nat :=
  if n < max limit 1 then .ok n else .error (.hang (max limit 1))

theorem performs_waitDone_busy (h : Afu.Sound config a) {n : Nat}
    (hsome : ∃ eng < config.engines, Word.bit mask eng = true)
    (hall : ∀ eng < config.engines, Word.bit mask eng = true →
      ∃ e, a.slot? eng = some ⟨e, true⟩ ∧ e.streaming = false ∧ e.stalled = false ∧ e.busy = n)
    (limit : Nat) :
    ∃ polls, Performs (σ := σ) (waitDone mask limit) a (waitAnswer n limit)
      (Bus.repeated polls donePoll) [] := by
  have hpoll := performs_runDone_busy (σ := σ) h hsome hall
  rw [waitDone_eq, pollUntil, waitAnswer]
  by_cases hlimit : n < max limit 1
  · have hwait := performs_pollFrom_ok hpoll hlimit
      (fun i hi => decide_eq_false (Nat.not_le_of_gt hi)) (decide_eq_true (Nat.le_refl n)) 0
    rw [Nat.zero_add] at hwait
    rw [if_pos hlimit]
    exact ⟨_, hwait⟩
  · have hlong : ∀ i < max limit 1, decide (n ≤ i) = false :=
      fun i hi => decide_eq_false (by omega)
    have hwait := performs_pollFrom_hang hpoll hlong 0
    rw [Nat.zero_add] at hwait
    rw [if_neg hlimit]
    exact ⟨_, hwait⟩

end

section

variable {config : AfuConfig} {a : Afu} {mask : UInt64}

theorem slot?_enabled (h : Afu.Sound config a) {eng : Nat} {s : Slot} (heng : eng < config.engines)
    (hs : a.slot? eng = some s) (hmask : Word.bit mask eng = true) :
    (Bus.serve a [.write (8 * Register.enableMask) mask]).slot? eng =
      some (s.apply config .enable) := by
  have hseen : Slot.seen config.engines eng [.write (8 * Register.enableMask) mask] = [.enable] := by
    rw [Slot.seen_cons, Bus.Request.operation, Slot.event?_enable, if_pos hmask]
    rfl
  exact h.slot?_of_seen heng hs hseen

theorem enable_waitDone (hv : config.Valid) (ha : Afu.Reachable config a)
    (hmask : ∃ eng < a.engines.length, Word.bit mask eng = true) (limit : Nat) :
    ((∀ eng e, a.engines[eng]? = some e → Word.bit mask eng = true →
        Word.bit a.enabled eng = false ∧ e.stalled = false ∧ e.unlimited = false) →
      ((do enable mask; waitDone mask limit : Bench Afu Nat).exec a).1 =
        if config.busyPolls < max limit 1 then .ok config.busyPolls
        else .error (.hang (max limit 1))) ∧
    ((∃ eng e, a.engines[eng]? = some e ∧ Word.bit mask eng = true ∧
        (e.stalled = true ∨ e.streaming = true ∨
          Word.bit a.enabled eng = false ∧ e.unlimited = true)) →
      ((do enable mask; waitDone mask limit : Bench Afu Nat).exec a).1 =
        .error (.hang (max limit 1))) := by
  have hsound := ha.sound hv
  have hclamp := AfuConfig.clamp_valid hv
  rw [hsound.length_eq] at hmask
  have henable := performs_enable (σ := Afu) hsound mask
  have hstarted := hsound.serve [.write (8 * Register.enableMask) mask]
  constructor
  · intro hfree
    have hall : ∀ eng < config.clamp.engines, Word.bit mask eng = true →
        ∃ e, (Bus.serve a [.write (8 * Register.enableMask) mask]).slot? eng = some ⟨e, true⟩ ∧
          e.streaming = false ∧ e.stalled = false ∧ e.busy = config.busyPolls := by
      intro eng heng hbit
      obtain ⟨s, hs⟩ := hsound.exists_slot heng
      obtain ⟨hengine, hrunning⟩ := Afu.slot?_eq_some_iff.1 hs
      obtain ⟨hstopped, hstalled, hfinite⟩ := hfree eng s.engine hengine hbit
      have hslot : s.Free := ⟨hrunning.symm.trans hstopped, hstalled, hfinite⟩
      obtain ⟨e, happly, hrest⟩ := hslot.enable hclamp (ha.consistent hv hs)
      refine ⟨e, ?_, hrest⟩
      rw [slot?_enabled hsound heng hs hbit, happly]
    obtain ⟨polls, hwait⟩ := performs_waitDone_busy (σ := Afu) hstarted hmask hall limit
    rw [(henable.bind hwait).exec rfl]
    rfl
  · rintro ⟨eng, e, hengine, hbit, hheld⟩
    have heng : eng < config.clamp.engines := by
      rw [← hsound.length_eq]
      exact (List.getElem?_eq_some_iff.1 hengine).1
    have hs : a.slot? eng = some ⟨e, Word.bit a.enabled eng⟩ :=
      Afu.slot?_eq_some_iff.2 ⟨hengine, rfl⟩
    have hslot : Slot.HeldUp ⟨e, Word.bit a.enabled eng⟩ := hheld
    have hwait := performs_waitDone_stuck (σ := Afu) hstarted heng
      (slot?_enabled hsound heng hs hbit) hbit (hslot.enable hclamp (ha.consistent hv hs)) limit
    rw [(henable.bind hwait).exec rfl]

end

/-- Engine 0 has just been disabled after a finite run and is still active, engine 1 streams, and
engine 2 is stalled. -/
def busyNeighbours : List Afu.Operation :=
  [.write (8 * Register.engineIndex 0 Register.writeTraffic) (Burst.toWord ⟨true, 1, 1⟩),
    .write (8 * Register.engineIndex 1 Register.readTraffic) (Burst.toWord ⟨true, 0, 4⟩),
    .stall 2 true, .write (8 * Register.enableMask) 3, .write (8 * Register.disableMask) 1,
    .read (8 * Register.activeMask)]

def busyDevice : Afu :=
  (Afu.new { AfuConfig.standard with engines := 3 }).run busyNeighbours

theorem enable_waitDone_busyNeighbours :
    AfuConfig.Valid { AfuConfig.standard with engines := 3 } ∧
      busyDevice.engines.map Engine.busy = [1, 0, 0] ∧
      ((do enable 0x21; waitDone 0x21 3 : Bench Afu Nat).exec busyDevice).1 = .ok 2 ∧
      ((do enable 0x21; waitDone 0x21 2 : Bench Afu Nat).exec busyDevice).1 = .error (.hang 2) ∧
      ((do enable 3; waitDone 3 9 : Bench Afu Nat).exec busyDevice).1 = .error (.hang 9) ∧
      ((do enable 5; waitDone 5 0 : Bench Afu Nat).exec busyDevice).1 = .error (.hang 1) := by
  have hv : AfuConfig.Valid { AfuConfig.standard with engines := 3 } := by decide
  have ha : Afu.Reachable { AfuConfig.standard with engines := 3 } busyDevice :=
    ⟨busyNeighbours, rfl⟩
  have hfirst : ∀ mask, Word.bit mask 0 = true →
      ∃ eng < busyDevice.engines.length, Word.bit mask eng = true :=
    fun mask hbit => ⟨0, by decide, hbit⟩
  have hfree : ∀ eng e, busyDevice.engines[eng]? = some e → Word.bit 0x21 eng = true →
      Word.bit busyDevice.enabled eng = false ∧ e.stalled = false ∧ e.unlimited = false := by
    intro eng e he hbit
    have heng : eng < 3 := (List.getElem?_eq_some_iff.1 he).1
    have honly : ∀ i < 3, Word.bit 0x21 i = true → i = 0 := by decide
    obtain rfl := honly eng heng hbit
    obtain rfl := Option.some.inj he
    decide
  have hstreams : ∃ eng e, busyDevice.engines[eng]? = some e ∧ Word.bit 3 eng = true ∧
      (e.stalled = true ∨ e.streaming = true ∨
        Word.bit busyDevice.enabled eng = false ∧ e.unlimited = true) :=
    ⟨1, _, rfl, by decide, .inr (.inl (by decide))⟩
  have hstalled : ∃ eng e, busyDevice.engines[eng]? = some e ∧ Word.bit 5 eng = true ∧
      (e.stalled = true ∨ e.streaming = true ∨
        Word.bit busyDevice.enabled eng = false ∧ e.unlimited = true) :=
    ⟨2, _, rfl, by decide, .inl (by decide)⟩
  refine ⟨hv, by decide, ?_, ?_, ?_, ?_⟩
  · exact (enable_waitDone hv ha (hfirst 0x21 (by decide)) 3).1 hfree
  · exact (enable_waitDone hv ha (hfirst 0x21 (by decide)) 2).1 hfree
  · exact (enable_waitDone hv ha (hfirst 3 (by decide)) 9).2 hstreams
  · exact (enable_waitDone hv ha (hfirst 5 (by decide)) 0).2 hstalled

end Bench

end AfuBench
