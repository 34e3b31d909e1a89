import AfuBench.Proofs.EngineInvariant

namespace AfuBench

namespace Engine

def moved (e : Engine) : Nat :=
  e.readLines + e.writeLines

def counters (e : Engine) : Nat × Nat × Nat :=
  (e.readBursts, e.readLines, e.writeLines)

theorem moved_eq_of_counters {e f : Engine} (h : e.counters = f.counters) : e.moved = f.moved := by
  simp only [counters, Prod.mk.injEq] at h
  rw [moved, moved, h.2.1, h.2.2]

theorem moved_tick (e : Engine) : e.tick.moved = e.tickLines + e.moved := by
  rw [tick, tickLines]
  split
  · simp only [moved, stream, burstLines]
    omega
  · simp only [moved]
    omega

theorem streaming_tick (e : Engine) : e.tick.streaming = e.streaming := by
  rw [tick]
  split <;> rfl

theorem counters_tick {e : Engine} (h : e.streaming = false) : e.tick.counters = e.counters := by
  rw [tick_eq_rest h]
  rfl

theorem counters_stop (config : AfuConfig) (e : Engine) :
    (e.stop config).counters = e.counters := by
  rw [stop]
  split <;> rfl

theorem streaming_stop (config : AfuConfig) (e : Engine) : (e.stop config).streaming = false := by
  rw [stop]
  split
  · rfl
  · exact eq_false_of_ne_true ‹_›

theorem start_moved {config : AfuConfig} (hv : config.Valid) (e : Engine) :
    (e.start config).2 = .ok (e.start config).1.moved := by
  have hmoved : (e.start config).1.moved =
      if e.unlimited then e.burstLines else e.reading.lines + e.writing.lines := by
    cases hendless : e.unlimited with
    | true =>
      rw [start_unlimited hendless]
      rfl
    | false =>
      rw [start_finite hv hendless]
      rfl
  have hoff {b : Burst} (hb : ¬ b.enabled = true) : b.lines = 0 := if_neg hb
  have hbegin : e.begin.unlimited = e.unlimited := rfl
  rw [hmoved, start, hbegin]
  split
  · rfl
  · rw [AfuConfig.wordCount_of_valid hv]
    split
    · exact congrArg Except.ok (Nat.add_comm _ _)
    · rename_i hnone
      rw [not_or] at hnone
      rw [hoff (b := e.reading) hnone.1, hoff (b := e.writing) hnone.2]

end Engine

namespace Afu

def sumFrom (mask : UInt64) (count : Nat → Engine → Nat) : Nat → List Engine → Nat
  | _, [] => 0
  | i, e :: es => (if Word.bit mask i then count i e else 0) + sumFrom mask count (i + 1) es

theorem sumFrom_congr {mask : UInt64} {count other : Nat → Engine → Nat} {i : Nat}
    {es fs : List Engine} (hlen : es.length = fs.length)
    (h : ∀ j e f, es[j]? = some e → fs[j]? = some f → Word.bit mask (i + j) = true →
      count (i + j) e = other (i + j) f) :
    sumFrom mask count i es = sumFrom mask other i fs := by
  induction es generalizing i fs with
  | nil =>
    obtain rfl := List.length_eq_zero_iff.1 hlen.symm
    rfl
  | cons e es ih =>
    cases fs with
    | nil => exact absurd hlen (by simp)
    | cons f fs =>
      have hrest : sumFrom mask count (i + 1) es = sumFrom mask other (i + 1) fs := by
        refine ih (Nat.succ.inj hlen) ?_
        intro j x y hx hy hbit
        have hstep := h (j + 1) x y hx hy
        rw [show i + (j + 1) = i + 1 + j by omega] at hstep
        exact hstep hbit
      rw [sumFrom, sumFrom, hrest]
      by_cases hbit : Word.bit mask i = true
      · have hhead : count i e = other i f := h 0 e f rfl rfl hbit
        rw [if_pos hbit, if_pos hbit, hhead]
      · rw [if_neg hbit, if_neg hbit]

def linesFrom (mask : UInt64) : Nat → List Engine → Nat :=
  sumFrom mask fun _ => Engine.moved

theorem linesFrom_tick {mask : UInt64} {i : Nat} {es : List Engine}
    (h : ∀ j e, es[j]? = some e → Word.bit mask (i + j) = false → e.streaming = false) :
    linesFrom mask i (es.map Engine.tick) =
      es.foldr (fun e lines => Engine.tickLines e + lines) 0 + linesFrom mask i es := by
  induction es generalizing i with
  | nil => rfl
  | cons e es ih =>
    have hrest := ih (i := i + 1) fun j x hx hbit =>
      h (j + 1) x hx (by rw [show i + (j + 1) = i + 1 + j by omega, hbit])
    rw [linesFrom] at hrest
    rw [linesFrom, List.map_cons, sumFrom, sumFrom, hrest, List.foldr_cons, Engine.moved_tick]
    by_cases hbit : Word.bit mask i = true
    · rw [if_pos hbit, if_pos hbit]
      omega
    · have hquiet : e.tickLines = 0 := by
        rw [Engine.tickLines, h 0 e rfl (eq_false_of_ne_true hbit)]
        rfl
      rw [if_neg hbit, if_neg hbit, hquiet]
      omega

theorem startFrom_lines {config : AfuConfig} (hv : config.Valid) (mask : UInt64) (i : Nat)
    (es : List Engine) :
    (startFrom config (Word.bit mask) i es).2.1 =
      linesFrom mask i (startFrom config (Word.bit mask) i es).1 := by
  induction es generalizing i with
  | nil => rfl
  | cons e es ih =>
    rw [startFrom]
    by_cases hbit : Word.bit mask i = true
    · have hstart : e.start config = ((e.start config).1, .ok (e.start config).1.moved) := by
        rw [← Engine.start_moved hv]
      rw [if_pos hbit, hstart]
      simp only
      rw [ih, linesFrom, sumFrom, if_pos hbit]
    · rw [if_neg hbit]
      simp only
      rw [ih, linesFrom, sumFrom, if_neg hbit, Nat.zero_add]

theorem startFrom_congr {config : AfuConfig} {select other : Nat → Bool} {i : Nat}
    {es : List Engine} (h : ∀ j < es.length, select (i + j) = other (i + j)) :
    startFrom config select i es = startFrom config other i es := by
  induction es generalizing i with
  | nil => rfl
  | cons e es ih =>
    have hfirst : select i = other i := h 0 (Nat.succ_pos _)
    have hrest : startFrom config select (i + 1) es = startFrom config other (i + 1) es := by
      apply ih
      intro j hj
      rw [show i + 1 + j = i + (j + 1) by omega]
      exact h (j + 1) (Nat.succ_lt_succ hj)
    rw [startFrom, startFrom, hfirst, hrest]

theorem enable_of_idle {a : Afu} (hv : a.config.Valid) (hlen : a.engines.length ≤ 16)
    (hidle : a.enabled = 0) {mask : UInt64}
    (hmask : ∃ eng < a.engines.length, Word.bit mask eng = true) :
    (a.enable mask).2 =
      { a with
        engines := (startFrom a.config (Word.bit mask) 0 a.engines).1
        cycles := (startFrom a.config (Word.bit mask) 0 a.engines).2.1 * a.config.cyclesPerLine
        enabled := mask &&& a.allEngines } := by
  have hselect : startFrom a.config
      (fun i => Word.bit (mask &&& a.allEngines) i && !Word.bit 0 i) 0 a.engines =
        startFrom a.config (Word.bit mask) 0 a.engines := by
    apply startFrom_congr
    intro j hj
    rw [Nat.zero_add, Word.bit_and, bit_allEngines hlen (by omega), decide_eq_true hj,
      Word.bit_zero, Bool.and_true, Bool.not_false, Bool.and_true]
  have hsome : mask &&& a.allEngines ≠ 0 := by
    obtain ⟨eng, heng, hbit⟩ := hmask
    apply Word.ne_zero_of_bit (i := eng)
    rw [Word.bit_and, hbit, bit_allEngines hlen (by omega), decide_eq_true heng]
    rfl
  rw [enable, if_pos ⟨hidle, hsome⟩]
  simp only [hidle]
  rw [hselect, (startFrom_ok hv _ 0 a.engines).1]
  simp only [addLines, Nat.zero_add, UInt64.zero_or]

/-- The device `b`, reached from `a` after an enable of the mask: the cycles are those of the lines
that the enabled engines show, and the other engines show what they did before. -/
structure Ledger (mask : UInt64) (a b : Afu) : Prop where
  cycles : b.cycles = b.config.cyclesPerLine * linesFrom mask 0 b.engines
  quiet : ∀ eng e, b.engines[eng]? = some e → Word.bit mask eng = false → e.streaming = false
  counters : ∀ eng, Word.bit mask eng = false →
    b.engines[eng]?.map Engine.counters = a.engines[eng]?.map Engine.counters

theorem ledger_enable {a : Afu} (hv : a.config.Valid) (hlen : a.engines.length ≤ 16)
    (hidle : a.enabled = 0) {mask : UInt64}
    (hmask : ∃ eng < a.engines.length, Word.bit mask eng = true)
    (hquiet : ∀ (eng : Nat) (e : Engine), a.engines[eng]? = some e → e.streaming = false) :
    Ledger mask a (a.enable mask).2 := by
  have hother : ∀ eng, Word.bit mask eng = false →
      (startFrom a.config (Word.bit mask) 0 a.engines).1[eng]? = a.engines[eng]? := by
    intro eng hbit
    rw [(startFrom_ok hv _ 0 a.engines).2, Nat.zero_add, hbit]
    exact Option.map_id'
  rw [enable_of_idle hv hlen hidle hmask]
  refine ⟨?_, ?_, ?_⟩
  · simp only
    rw [startFrom_lines hv, Nat.mul_comm]
  · intro eng e he hbit
    exact hquiet eng e ((hother eng hbit).symm.trans he)
  · intro eng hbit
    exact congrArg (Option.map Engine.counters) (hother eng hbit)

variable {mask : UInt64} {a b : Afu}

theorem Ledger.tick (h : Ledger mask a b) : Ledger mask a b.tick where
  cycles := by
    have hquiet : linesFrom mask 0 (b.engines.map Engine.tick) = _ :=
      linesFrom_tick fun j e he hbit => h.quiet j e he (by rw [← hbit, Nat.zero_add])
    simp only [Afu.tick, addLines]
    rw [hquiet, h.cycles, Nat.mul_add, Nat.mul_comm b.config.cyclesPerLine (List.foldr _ _ _),
      Nat.add_comm]
  quiet eng e he hbit := by
    simp only [Afu.tick, addLines, List.getElem?_map, Option.map_eq_some_iff] at he
    obtain ⟨x, hx, rfl⟩ := he
    rw [Engine.streaming_tick]
    exact h.quiet eng x hx hbit
  counters eng hbit := by
    rw [← h.counters eng hbit]
    simp only [Afu.tick, addLines, List.getElem?_map, Option.map_map]
    cases hx : b.engines[eng]? with
    | none => rfl
    | some e => exact congrArg some (Engine.counters_tick (h.quiet eng e hx hbit))

theorem Ledger.of_map (h : Ledger mask a b) {c : Afu} {f : Nat → Engine → Engine}
    (hconfig : c.config = b.config) (hcycles : c.cycles = b.cycles)
    (hengines : ∀ eng, c.engines[eng]? = b.engines[eng]?.map (f eng))
    (hcounters : ∀ eng e, (f eng e).counters = e.counters)
    (hstreaming : ∀ eng e, e.streaming = false → (f eng e).streaming = false) :
    Ledger mask a c where
  cycles := by
    rw [hconfig, hcycles, h.cycles]
    congr 1
    refine (sumFrom_congr (length_eq_of_getElem?_map hengines) ?_).symm
    intro j x e hx he _
    rw [hengines, he, Option.map_some, Option.some.injEq] at hx
    rw [← hx]
    exact Engine.moved_eq_of_counters (hcounters j e)
  quiet eng e he hbit := by
    rw [hengines, Option.map_eq_some_iff] at he
    obtain ⟨x, hx, rfl⟩ := he
    exact hstreaming eng x (h.quiet eng x hx hbit)
  counters eng hbit := by
    rw [hengines, Option.map_map, ← h.counters eng hbit]
    congr 1
    funext e
    exact hcounters eng e

theorem Ledger.disable (h : Ledger mask a b) (off : UInt64) : Ledger mask a (b.disable off) := by
  refine h.of_map (f := fun eng e => if Word.bit off eng then e.stop b.config else e) rfl rfl
    (fun eng => List.getElem?_mapIdx) ?_ ?_
  · intro eng e
    split
    · exact Engine.counters_stop _ e
    · rfl
  · intro eng e he
    split
    · exact Engine.streaming_stop _ e
    · exact he

theorem Ledger.modify (h : Ledger mask a b) (eng : Nat) {f : Engine → Engine}
    (hcounters : ∀ e, (f e).counters = e.counters)
    (hstreaming : ∀ e, (f e).streaming = e.streaming) :
    Ledger mask a { b with engines := b.engines.modify eng f } := by
  refine h.of_map (f := fun j e => if eng = j then f e else e) rfl rfl
    (fun j => List.getElem?_modify _ _ _ _) ?_ ?_
  · intro j e
    split
    · exact hcounters e
    · rfl
  · intro j e he
    split
    · rw [hstreaming, he]
    · exact he

theorem Ledger.apply (h : Ledger mask a b) {op : Operation}
    (hop : ∀ value, op ≠ .write (8 * Register.enableMask) value) : Ledger mask a (b.apply op) := by
  cases op with
  | read offset =>
    rw [apply_read]
    split
    · exact h.tick
    · exact h
  | write offset value =>
    rw [Afu.apply, write]
    split
    · exact h
    · rw [writeWord]
      cases htarget : Register.target b.engines.length (offset / 8) with
      | enable =>
        have hindex := Register.target_eq_enable_iff.1 htarget
        exact absurd (congrArg (Operation.write · value) (by omega)) (hop value)
      | disable => exact h.disable value
      | shared reg => exact ⟨h.cycles, h.quiet, h.counters⟩
      | engine eng reg =>
        refine h.modify eng ?_ ?_
        · intro e
          obtain ⟨_, _, _, hwrite⟩ := e.writeRegister_eq reg value
          rw [hwrite]
          rfl
        · intro e
          obtain ⟨_, _, _, hwrite⟩ := e.writeRegister_eq reg value
          rw [hwrite]
      | readOnly => exact h
  | stall eng on => exact h.modify eng (fun _ => rfl) fun _ => rfl
  | corrupt eng on => exact h.modify eng (fun _ => rfl) fun _ => rfl

theorem Ledger.run (h : Ledger mask a b) {ops : List Operation}
    (hops : ∀ op ∈ ops, ∀ value, op ≠ .write (8 * Register.enableMask) value) :
    Ledger mask a (b.run ops) := by
  induction ops generalizing b with
  | nil => exact h
  | cons op ops ih =>
    refine ih (h.apply (hops op List.mem_cons_self)) ?_
    intro later hlater
    exact hops later (List.mem_cons_of_mem op hlater)

theorem Reachable.not_streaming {config : AfuConfig} (hv : config.Valid)
    (ha : Reachable config a) (hidle : a.enabled = 0) {eng : Nat} {e : Engine}
    (he : a.engines[eng]? = some e) : e.streaming = false := by
  have heng : eng < config.clamp.engines := by
    rw [← (ha.fixed hv).length_eq]
    exact (List.getElem?_eq_some_iff.1 he).1
  obtain ⟨events, hslot⟩ := ha.slot? hv heng
  have hconsistent := Slot.consistent_run (AfuConfig.clamp_valid hv)
    (Slot.consistent_idle config.clamp) events
  obtain ⟨hengine, hrunning⟩ := slot?_eq_some_iff.1 hslot
  rw [hidle, Word.bit_zero] at hrunning
  apply eq_false_of_ne_true
  intro hstreaming
  rw [Option.some.inj (he.symm.trans hengine)] at hstreaming
  rw [hconsistent.streams_running hstreaming] at hrunning
  exact Bool.false_ne_true hrunning

def shown (a : Afu) (index : Nat) : Nat :=
  (a.readWord index).1.toNat

theorem shown_counter {eng : Nat} {e : Engine} (hlen : a.engines.length ≤ 16)
    (he : a.engines[eng]? = some e) :
    a.shown (Register.engineIndex eng Register.readLines) = (UInt64.ofNat e.readLines).toNat ∧
      a.shown (Register.engineIndex eng Register.writeLines) =
        (UInt64.ofNat e.writeLines).toNat := by
  have hs : a.slot? eng = some ⟨e, Word.bit a.enabled eng⟩ := slot?_eq_some_iff.2 ⟨he, rfl⟩
  rw [shown, shown, readWord_engine hs hlen (by decide), readWord_engine hs hlen (by decide)]
  exact ⟨rfl, rfl⟩

/-- After an enable while nothing runs, and up to the next enable, the cycle counter shows the cycles
of exactly the lines that the line counters of the enabled engines show, as long as no counter
overflows. The counters of the other engines stand still. -/
theorem cycles_run {config : AfuConfig} (hv : config.Valid) (ha : Reachable config a)
    (hidle : a.enabled = 0) (hmask : ∃ eng < a.engines.length, Word.bit mask eng = true)
    {ops : List Operation}
    (hops : ∀ op ∈ ops, ∀ value, op ≠ .write (8 * Register.enableMask) value)
    (hb : b = (a.apply (.write (8 * Register.enableMask) mask)).run ops) :
    b.cycles = config.cyclesPerLine *
        sumFrom mask (fun _ e => e.readLines + e.writeLines) 0 b.engines ∧
      (b.cycles < UInt64.size →
        (∀ eng e, b.engines[eng]? = some e → Word.bit mask eng = true →
          e.readLines < UInt64.size ∧ e.writeLines < UInt64.size) →
        b.shown Register.cycles = config.cyclesPerLine *
          sumFrom mask (fun eng _ => b.shown (Register.engineIndex eng Register.readLines) +
            b.shown (Register.engineIndex eng Register.writeLines)) 0 b.engines) ∧
      ∀ eng, Word.bit mask eng = false →
        b.engines[eng]?.map Engine.counters = a.engines[eng]?.map Engine.counters := by
  have hsound := Reachable.sound hv ha
  have hfixed : Sound config.clamp b := by
    rw [hb]
    exact Reachable.sound hv ((ha.run [.write (8 * Register.enableMask) mask]).run ops)
  have henabled : a.apply (.write (8 * Register.enableMask) mask) = (a.enable mask).2 := by
    rw [Afu.apply, write_word]
    rfl
  -- Nothing streams while nothing is enabled, so no engine outside the mask moves lines later.
  have hledger : Ledger mask a b := by
    rw [hb, henabled]
    refine (ledger_enable ?_ hsound.length_le hidle hmask ?_).run hops
    · rw [hsound.config_eq]
      exact hsound.valid
    · exact fun eng e he => ha.not_streaming hv hidle he
  have hcycles := hledger.cycles
  rw [hfixed.config_eq] at hcycles
  refine ⟨hcycles, ?_, hledger.counters⟩
  intro hfits hfit
  have hshown : b.shown Register.cycles = b.cycles := by
    change (UInt64.ofNat b.cycles).toNat = b.cycles
    rw [UInt64.toNat_ofNat_of_lt' hfits]
  rw [hshown, hcycles]
  congr 1
  refine sumFrom_congr rfl ?_
  intro eng e f he hf hbit
  obtain rfl := Option.some.inj (he.symm.trans hf)
  rw [Nat.zero_add] at hbit ⊢
  obtain ⟨hreads, hwrites⟩ := shown_counter hfixed.length_le he
  obtain ⟨hread, hwrite⟩ := hfit eng e he hbit
  rw [hreads, hwrites, UInt64.toNat_ofNat_of_lt' hread, UInt64.toNat_ofNat_of_lt' hwrite]
  rfl

/-- Engine 1 has come to the end of a run of two lines; engine 0 is set up to stream. -/
def setUpRun : List Operation :=
  [.write (8 * Register.engineIndex 1 Register.writeTraffic) (Burst.toWord ⟨true, 1, 2⟩),
    .write (8 * Register.enableMask) 2, .write (8 * Register.disableMask) 2,
    .write (8 * Register.engineIndex 0 Register.readTraffic) (Burst.toWord ⟨true, 0, 4⟩)]

/-- Engine 0 is given another burst size while it streams, and drains at the end. -/
def resizedStream : List Operation :=
  [.read (8 * Register.activeMask),
    .write (8 * Register.engineIndex 0 Register.readTraffic) (Burst.toWord ⟨true, 0, 7⟩),
    .read (8 * Register.activeMask), .write (8 * Register.disableMask) 3,
    .read (8 * Register.activeMask)]

def resizedDevice : Afu :=
  (((new .standard).run setUpRun).apply (.write (8 * Register.enableMask) 1)).run resizedStream

theorem cycles_run_resizedStream :
    AfuConfig.standard.Valid ∧ ((new .standard).run setUpRun).enabled = 0 ∧
      resizedDevice.cycles = 10 *
        sumFrom 1 (fun _ e => e.readLines + e.writeLines) 0 resizedDevice.engines ∧
      resizedDevice.shown Register.cycles = 10 *
        sumFrom 1 (fun eng _ =>
          resizedDevice.shown (Register.engineIndex eng Register.readLines) +
            resizedDevice.shown (Register.engineIndex eng Register.writeLines)) 0
          resizedDevice.engines ∧
      resizedDevice.shown Register.cycles = 150 ∧
      resizedDevice.engines[1]?.map Engine.counters = some (0, 0, 2) := by
  have hv : AfuConfig.standard.Valid := by decide
  have hidle : ((new .standard).run setUpRun).enabled = 0 := by decide
  have hmask : ∃ eng < ((new .standard).run setUpRun).engines.length, Word.bit 1 eng = true :=
    ⟨0, by decide, by decide⟩
  have hsize : 8 * Register.engineIndex 0 Register.readTraffic ≠ 8 * Register.enableMask := by decide
  have hstop : 8 * Register.disableMask ≠ 8 * Register.enableMask := by decide
  have hops : ∀ op ∈ resizedStream, ∀ value, op ≠ .write (8 * Register.enableMask) value := by
    simp [resizedStream, hsize, hstop]
  have hfit : ∀ e ∈ resizedDevice.engines,
      e.readLines < UInt64.size ∧ e.writeLines < UInt64.size := by decide
  obtain ⟨hcycles, hshown, hother⟩ :=
    cycles_run (b := resizedDevice) hv ⟨setUpRun, rfl⟩ hidle hmask hops rfl
  refine ⟨hv, hidle, hcycles, ?_, by decide, (hother 1 (by decide)).trans (by decide)⟩
  exact hshown (by decide) fun _ e he _ => hfit e (List.mem_of_getElem? he)

end Afu

end AfuBench
