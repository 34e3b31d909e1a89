import AfuBench.Bench.Poll
import AfuBench.Proofs.EngineEvents

namespace AfuBench

namespace Word

theorem and_ofBit_eq_zero_iff {w : UInt64} {i : Nat} (hi : i < 64) :
    w &&& ofBit true i = 0 ↔ bit w i = false := by
  constructor
  · intro h
    have hbit := congrArg (bit · i) h
    simpa only [bit_and, bit_ofBit true hi, bit_zero, decide_true, Bool.and_self,
      Bool.and_true] using hbit
  · intro h
    apply eq_of_bit
    intro j hj
    rw [bit_and, bit_ofBit true hi, bit_zero]
    by_cases hij : i = j
    · rw [← hij, h, Bool.false_and]
    · simp [hij]

theorem ne_zero_of_bit {w : UInt64} {i : Nat} (h : bit w i = true) : w ≠ 0 := by
  rintro rfl
  rw [bit_zero] at h
  exact Bool.false_ne_true h

end Word

namespace Afu

theorem bit_maskFrom (select : Engine → Bool) {i : Nat} {es : List Engine}
    (hlen : i + es.length ≤ 64) (j : Nat) :
    Word.bit (maskFrom select i es) j = (decide (i ≤ j) && es[j - i]?.any select) := by
  induction es generalizing i with
  | nil => simp [maskFrom, Word.bit_zero]
  | cons e es ih =>
    rw [List.length_cons] at hlen
    rw [maskFrom, Word.bit_or, Word.bit_ofBit _ (by omega), ih (by omega)]
    rcases Nat.lt_trichotomy i j with hlt | rfl | hgt
    · have hnext : j - i = j - (i + 1) + 1 := by omega
      rw [hnext, List.getElem?_cons_succ]
      simp [Nat.ne_of_lt hlt, Nat.succ_le_of_lt hlt, Nat.le_of_lt hlt]
    · have hself : ¬ i + 1 ≤ i := by omega
      simp [hself]
    · simp [Nat.ne_of_gt hgt, Nat.not_le_of_gt hgt, Nat.not_le_of_gt (Nat.lt_succ_of_lt hgt)]

theorem bit_activeMask {a : Afu} (hlen : a.engines.length ≤ Register.maxEngines) (eng : Nat) :
    Word.bit a.activeMask eng = a.engines[eng]?.any Engine.active := by
  have h64 : 0 + a.engines.length ≤ 64 := by
    have : Register.maxEngines ≤ 64 := by decide
    omega
  rw [activeMask, bit_maskFrom _ h64]
  simp

theorem activeMask_eq_zero_iff {a : Afu} (hlen : a.engines.length ≤ Register.maxEngines) :
    a.activeMask = 0 ↔ ∀ eng < a.engines.length, a.engines[eng]?.any Engine.active = false := by
  constructor
  · intro hzero eng _
    rw [← bit_activeMask hlen, hzero, Word.bit_zero]
  · intro hidle
    apply Word.eq_of_bit
    intro eng _
    rw [bit_activeMask hlen, Word.bit_zero]
    by_cases heng : eng < a.engines.length
    · exact hidle eng heng
    · rw [List.getElem?_eq_none (Nat.le_of_not_lt heng), Option.any_none]

theorem slot?_eq_some_iff {a : Afu} {eng : Nat} {s : Slot} :
    a.slot? eng = some s ↔ a.engines[eng]? = some s.engine ∧ Word.bit a.enabled eng = s.running := by
  rw [slot?, Option.map_eq_some_iff]
  constructor
  · rintro ⟨e, he, rfl⟩
    exact ⟨he, rfl⟩
  · rintro ⟨he, hrun⟩
    exact ⟨s.engine, he, by rw [hrun]⟩

end Afu

def Engine.rest (n : Nat) (e : Engine) : Engine :=
  { e with busy := e.busy - n }

theorem Engine.tick_eq_rest {e : Engine} (he : e.streaming = false) : e.tick = e.rest 1 := by
  rw [tick, if_neg (by simp [he]), rest]

theorem Slot.run_ticks (config : AfuConfig) {s : Slot} (hs : s.engine.streaming = false) (n : Nat) :
    s.run config (List.replicate n .tick) = ⟨s.engine.rest n, s.running⟩ := by
  induction n generalizing s with
  | zero => rfl
  | succ n ih =>
    have hstep : s.apply config .tick = ⟨s.engine.rest 1, s.running⟩ := by
      rw [apply, Engine.tick_eq_rest hs]
    rw [List.replicate_succ]
    change (s.apply config .tick).run config (List.replicate n .tick) = _
    rw [hstep, ih (s := ⟨s.engine.rest 1, s.running⟩) hs]
    simp only [Engine.rest, Nat.sub_sub, Nat.add_comm 1 n]

namespace Bench

variable {σ : Type} [Bus σ] [Afu.Host σ]

section

variable {condition : Bench σ Bool} {a : Afu} {requests : List Bus.Request} {answer : Nat → Bool}

theorem performs_next_poll
    (h : ∀ i, Performs condition (Bus.serve a (Bus.repeated i requests)) (.ok (answer i)) requests [])
    (i : Nat) :
    Performs condition (Bus.serve (Bus.serve a requests) (Bus.repeated i requests))
      (.ok (answer (i + 1))) requests [] := by
  rw [← Bus.serve_append, ← Bus.repeated_succ]
  exact h (i + 1)

theorem performs_pollFrom_ok
    (h : ∀ i, Performs condition (Bus.serve a (Bus.repeated i requests)) (.ok (answer i)) requests [])
    {n left : Nat} (hleft : n < left) (hfalse : ∀ i < n, answer i = false) (htrue : answer n = true)
    (failed : Nat) :
    Performs (pollFrom condition failed left) a (.ok (failed + n))
      (Bus.repeated (n + 1) requests) [] := by
  have hfirst : Performs condition a (.ok (answer 0)) requests [] := h 0
  obtain ⟨left, rfl⟩ : ∃ m, left = m + 1 := ⟨left - 1, by omega⟩
  rw [pollFrom, Bus.repeated_succ]
  induction n generalizing a answer failed left with
  | zero =>
    refine hfirst.bind ?_
    rw [htrue]
    exact performs_pure failed _
  | succ n ih =>
    obtain ⟨left, rfl⟩ : ∃ m, left = m + 1 := ⟨left - 1, by omega⟩
    have hrest := ih (performs_next_poll h) (fun i hi => hfalse (i + 1) (by omega)) htrue
      (failed + 1) (performs_next_poll h 0) left (by omega)
    refine hfirst.bind ?_
    rw [hfalse 0 (by omega), pollFrom, Bus.repeated_succ, ← Nat.add_assoc,
      Nat.add_right_comm failed n 1]
    simp only [Bool.false_eq_true, if_false]
    exact hrest

theorem performs_pollFrom_hang
    (h : ∀ i, Performs condition (Bus.serve a (Bus.repeated i requests)) (.ok (answer i)) requests [])
    {left : Nat} (hfalse : ∀ i < left, answer i = false) (failed : Nat) :
    Performs (pollFrom condition failed left) a (.error (.hang (failed + left)))
      (Bus.repeated left requests) [] := by
  induction left generalizing a answer failed with
  | zero => exact performs_throw (.hang failed) a
  | succ left ih =>
    have hfirst : Performs condition a (.ok (answer 0)) requests [] := h 0
    have hrest := ih (performs_next_poll h) (fun i hi => hfalse (i + 1) (by omega)) (failed + 1)
    rw [pollFrom, Bus.repeated_succ]
    refine hfirst.bind ?_
    rw [hfalse 0 (by omega), ← Nat.add_assoc, Nat.add_right_comm]
    exact hrest

end

def donePoll : List Bus.Request :=
  [.read (8 * Register.runMask), .read (8 * Register.activeMask)]

theorem seen_donePoll (engines eng n : Nat) :
    Slot.seen engines eng (Bus.repeated n donePoll) = List.replicate n .tick := by
  rw [Slot.seen_repeated]
  exact List.flatten_replicate_singleton

def runDone (mask : UInt64) : Bench σ Bool := do
  let enabled ← enabled
  let active ← active
  return enabled ≠ 0 ∧ active &&& mask = 0

omit [Afu.Host σ] in
theorem waitDone_eq (mask : UInt64) (limit : Nat) :
    waitDone (σ := σ) mask limit = pollUntil limit (runDone mask) := rfl

theorem performs_runDone (mask : UInt64) (a : Afu) :
    Performs (σ := σ) (runDone mask) a
      (.ok (decide (a.enabled ≠ 0 ∧ a.activeMask &&& mask = 0))) donePoll [] := by
  refine (performs_read Register.runMask a).bind ?_
  exact (performs_read Register.activeMask _).bind (performs_pure _ _)

section

variable {config : AfuConfig} {a : Afu} {eng : Nat} {s : Slot}

theorem performs_runDone_after (h : Afu.Sound config a) (heng : eng < config.engines)
    (hs : a.slot? eng = some s) (hrun : s.running = true) (hstream : s.engine.streaming = false)
    (i : Nat) :
    Performs (σ := σ) (runDone (Word.ofBit true eng)) (Bus.serve a (Bus.repeated i donePoll))
      (.ok !(s.engine.rest i).active) donePoll [] := by
  have hslot := h.slot?_of_seen heng hs (seen_donePoll config.engines eng i)
  rw [Slot.run_ticks config hstream, Afu.slot?_eq_some_iff] at hslot
  obtain ⟨hengine, hbit⟩ := hslot
  have h64 : eng < 64 := Nat.lt_trans (h.lt_maxEngines heng) (by decide)
  have hon := Word.ne_zero_of_bit (hbit.trans hrun)
  have hdone : (decide ((Bus.serve a (Bus.repeated i donePoll)).enabled ≠ 0 ∧
      (Bus.serve a (Bus.repeated i donePoll)).activeMask &&& Word.ofBit true eng = 0)) =
        !(s.engine.rest i).active := by
    simp only [Word.and_ofBit_eq_zero_iff h64, Afu.bit_activeMask (h.serve _).length_le, hengine,
      hon, ne_eq, not_false_eq_true, true_and, Option.any_some, Bool.decide_eq_false]
  rw [← hdone]
  exact performs_runDone _ _

theorem performs_waitDone (h : Afu.Sound config a) (heng : eng < config.engines)
    (hs : a.slot? eng = some s) (hrun : s.running = true) (hstream : s.engine.streaming = false)
    (hfree : s.engine.stalled = false) {limit : Nat} (hlimit : s.engine.busy < limit) :
    Performs (σ := σ) (waitDone (Word.ofBit true eng) limit) a (.ok s.engine.busy)
      (Bus.repeated (s.engine.busy + 1) donePoll) [] := by
  have hpolls : s.engine.busy < max limit 1 := by omega
  have hwait := performs_pollFrom_ok (performs_runDone_after (σ := σ) h heng hs hrun hstream)
    hpolls ?_ ?_ 0
  · rwa [Nat.zero_add] at hwait
  · intro i hi
    simp [Engine.rest, Engine.active, Nat.sub_pos_of_lt hi]
  · simp [Engine.rest, Engine.active, hstream, hfree]

theorem performs_waitDone_hang (h : Afu.Sound config a) (heng : eng < config.engines)
    (hs : a.slot? eng = some s) (hrun : s.running = true) (hstream : s.engine.streaming = false)
    {limit : Nat} (hlimit : 0 < limit)
    (hstuck : s.engine.stalled = true ∧ s.engine.started = true ∨ limit ≤ s.engine.busy) :
    Performs (σ := σ) (waitDone (Word.ofBit true eng) limit) a (.error (.hang limit))
      (Bus.repeated limit donePoll) [] := by
  have hactive : ∀ i < limit, (!(s.engine.rest i).active) = false := by
    intro i hi
    rcases hstuck with ⟨hstalled, hstarted⟩ | hbusy
    · simp [Engine.rest, Engine.active, hstalled, hstarted]
    · simp [Engine.rest, Engine.active, Nat.sub_pos_of_lt (Nat.lt_of_lt_of_le hi hbusy)]
  have hwait := performs_pollFrom_hang (performs_runDone_after (σ := σ) h heng hs hrun hstream)
    hactive 0
  rw [Nat.zero_add] at hwait
  rw [waitDone_eq, pollUntil, Nat.max_eq_left hlimit]
  exact hwait

end

theorem performs_waitStarted {a : Afu} (hon : a.enabled ≠ 0) (limit : Nat) :
    Performs (σ := σ) (waitStarted limit) a (.ok 0) [.read (8 * Register.runMask)] [] := by
  obtain ⟨left, hleft⟩ : ∃ left, max limit 1 = left + 1 := ⟨max limit 1 - 1, by omega⟩
  rw [waitStarted, pollUntil, hleft, pollFrom]
  refine ((performs_read Register.runMask a).bind_pure fun enabled => decide (enabled ≠ 0)).bind ?_
  have hfound : decide ((a.readWord Register.runMask).1 ≠ 0) = true := decide_eq_true hon
  rw [hfound]
  exact performs_pure 0 _

def idlePoll : List Bus.Request :=
  [.read (8 * Register.activeMask)]

theorem seen_idlePoll (engines eng n : Nat) :
    Slot.seen engines eng (Bus.repeated n idlePoll) = List.replicate n .tick := by
  rw [Slot.seen_repeated]
  exact List.flatten_replicate_singleton

theorem performs_waitIdle {config : AfuConfig} {a : Afu} (h : Afu.Sound config a)
    (hpos : 0 < config.engines) {n limit : Nat}
    (hslot : ∀ eng < config.engines, ∃ s, a.slot? eng = some s ∧ s.engine.streaming = false ∧
      s.engine.stalled = false ∧ s.engine.busy = n) (hlimit : n < limit) :
    Performs (σ := σ) (waitIdle limit) a (.ok n) (Bus.repeated (n + 1) idlePoll) [] := by
  have hactive (i : Nat) : ∀ eng < config.engines,
      (Bus.serve a (Bus.repeated i idlePoll)).engines[eng]?.any Engine.active =
        decide (i < n) := by
    intro eng heng
    obtain ⟨s, hs, hstream, hstalled, hbusy⟩ := hslot eng heng
    have hafter := h.slot?_of_seen heng hs (seen_idlePoll config.engines eng i)
    rw [Slot.run_ticks config hstream, Afu.slot?_eq_some_iff] at hafter
    have hleft : 0 < n - i ↔ i < n := by omega
    rw [hafter.1, Option.any_some]
    simp only [Engine.active, Engine.rest, hstream, hstalled, hbusy, hleft, Bool.false_or,
      Bool.false_and, Bool.or_false]
  have hpoll (i : Nat) : Performs (do return (← active) = 0 : Bench σ Bool)
      (Bus.serve a (Bus.repeated i idlePoll)) (.ok (decide (n ≤ i))) idlePoll [] := by
    have hsound := h.serve (Bus.repeated i idlePoll)
    have hfound : decide ((Bus.serve a (Bus.repeated i idlePoll)).activeMask = 0) =
        decide (n ≤ i) := by
      rw [decide_eq_decide, Afu.activeMask_eq_zero_iff hsound.length_le, hsound.length_eq]
      constructor
      · intro hall
        have hfirst := hall 0 hpos
        rw [hactive i 0 hpos, decide_eq_false_iff_not] at hfirst
        exact Nat.le_of_not_lt hfirst
      · intro hle eng heng
        rw [hactive i eng heng, decide_eq_false_iff_not]
        exact Nat.not_lt_of_le hle
    rw [← hfound]
    exact (performs_read Register.activeMask _).bind_pure fun active => decide (active = 0)
  have hpolls : n < max limit 1 := by omega
  have hwait := performs_pollFrom_ok hpoll hpolls
    (fun i hi => decide_eq_false (Nat.not_le_of_gt hi)) (decide_eq_true (Nat.le_refl n)) 0
  rw [Nat.zero_add] at hwait
  exact hwait

end Bench

end AfuBench
