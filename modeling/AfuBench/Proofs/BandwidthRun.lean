import AfuBench.Bench.LocalMemory
import AfuBench.Proofs.ContinuousTraffic
import AfuBench.Proofs.EngineSweep

namespace AfuBench.Bench

variable {σ α β : Type} [Bus σ] [Afu.Host σ] {config : AfuConfig} {faults : Nat → Fault} {a : Afu}

def Looks (p : Bench σ α) (a : Afu) : Prop :=
  Completes p a fun _ b => b = a

theorem looks_pure (x : α) (a : Afu) : Looks (σ := σ) (pure x) a :=
  completes_pure rfl

theorem looks_printLine (text : String) (a : Afu) : Looks (σ := σ) (printLine text) a :=
  (performs_printLine text a).completes rfl

theorem looks_read {index : Nat} (hindex : index ≠ Register.activeMask) (a : Afu) :
    Looks (σ := σ) (read index) a :=
  (performs_read index a).completes (Afu.serve_read hindex a [])

theorem Looks.bind {p : Bench σ α} {k : α → Bench σ β} (hp : Looks p a)
    (hk : ∀ x, Looks (k x) a) : Looks (p >>= k) a := by
  refine Completes.bind hp ?_
  rintro x b rfl
  exact hk x

theorem looks_clockMhz (a : Afu) : Looks (σ := σ) clockMhz a := by
  refine (looks_read (by decide) a).bind ?_
  intro enabled
  split
  · exact looks_pure _ a
  · refine (looks_read (by decide) a).bind fun config => ?_
    refine (looks_read (by decide) a).bind fun cycles => ?_
    refine (looks_read (by decide) a).bind fun reference => ?_
    split
    · exact looks_pure _ a
    · exact looks_pure _ a

theorem looks_knownClock (mhz : Float) (a : Afu) : Looks (σ := σ) (knownClock mhz) a := by
  rw [knownClock]
  split
  · refine (looks_clockMhz a).bind fun mhz => ?_
    exact (looks_printLine _ a).bind fun _ => looks_pure mhz a
  · exact looks_pure mhz a

theorem looks_measure (h : Afu.Sound config a) {eng : Nat} (heng : eng < config.engines) {s : Slot}
    (hs : a.slot? eng = some s)
    (hmoved : ¬ (UInt64.ofNat s.engine.readLines = 0 ∧ UInt64.ofNat s.engine.writeLines = 0))
    (mode : Mode) (mhz : Float) (cycles : UInt64) (caps : Capabilities) :
    Looks (σ := σ) (measure mode mhz cycles eng caps) a := by
  have hstay : ∀ reg < Register.perEngine,
      Bus.serve a [.read (8 * Register.engineIndex eng reg)] = a := fun reg hreg =>
    Afu.serve_read (Register.engineIndex_ne_activeMask (h.lt_maxEngines heng) hreg) a []
  have hread : Completes (σ := σ) (readEngine eng Register.readLines) a
      fun x b => x = UInt64.ofNat s.engine.readLines ∧ b = a :=
    (performs_readEngine h heng (by decide) hs).completes ⟨rfl, hstay _ (by decide)⟩
  have hwrite : Completes (σ := σ) (readEngine eng Register.writeLines) a
      fun x b => x = UInt64.ofNat s.engine.writeLines ∧ b = a :=
    (performs_readEngine h heng (by decide) hs).completes ⟨rfl, hstay _ (by decide)⟩
  refine hread.bind ?_
  rintro _ _ ⟨rfl, rfl⟩
  refine hwrite.bind ?_
  rintro _ _ ⟨rfl, rfl⟩
  rw [if_neg hmoved]
  exact (looks_printLine _ _).bind fun _ => looks_pure _ _

theorem slot?_span (h : Afu.Idle config faults a) {size : Nat} (hsize : size < 2 ^ 16)
    (mode : Mode) {eng : Nat} (heng : eng < config.engines) :
    ∃ s, a.slot? eng = some s ∧ s.Idle (faults eng) ∧
      (Bus.serve a (spanRequests config.engines size mode
          (Word.ofBit true config.engines - 1))).slot? eng =
        some ⟨s.engine.afterSpan config eng size mode, false⟩ := by
  obtain ⟨s, hs, hidle⟩ := h.slot eng heng
  refine ⟨s, hs, hidle, ?_⟩
  have hmask : Word.bit (Word.ofBit true config.engines - 1) eng = true := by
    rw [Word.bit_ofBit_sub_one h.few, decide_eq_true heng]
  rw [h.slot?_of_seen heng hs (Slot.seen_spanRequests heng h.few size mode hmask),
    Slot.run_spanEvents config hidle hsize]

theorem idle_span (h : Afu.Idle config faults a) {size : Nat} (hsize : size < 2 ^ 16)
    (mode : Mode) :
    Afu.Idle config faults (Bus.serve a (spanRequests config.engines size mode
      (Word.ofBit true config.engines - 1))) where
  toSound := h.toSound.serve _
  slot eng heng := by
    obtain ⟨s, _, hidle, hspan⟩ := slot?_span h hsize mode heng
    exact ⟨_, hspan, Slot.idle_afterSpan hidle config eng size mode⟩

theorem moved_afterSpan {size : Nat} (hpos : 0 < size) (hsize : size < 2 ^ 16) (mode : Mode)
    (config : AfuConfig) (eng : Nat) (e : Engine) :
    ¬ (UInt64.ofNat (e.afterSpan config eng size mode).readLines = 0 ∧
      UInt64.ofNat (e.afterSpan config eng size mode).writeLines = 0) := by
  have hne : UInt64.ofNat size ≠ 0 := by
    intro hzero
    have hnat := congrArg UInt64.toNat hzero
    rw [UInt64.toNat_ofNat_of_lt' (Nat.lt_trans hsize (by decide))] at hnat
    exact absurd hnat (by simp; omega)
  rintro ⟨hread, hwrite⟩
  cases mode with
  | write => exact hne hwrite
  | read => exact hne hread
  | readWrite => exact hne hread

theorem idle_wait (h : Afu.Idle config faults a) (n : Nat) :
    Afu.Idle config faults (Bus.serve a (Bus.repeated n idlePoll)) where
  toSound := h.toSound.serve _
  slot eng heng := by
    obtain ⟨s, hs, hidle⟩ := h.slot eng heng
    refine ⟨_, h.slot?_of_seen heng hs (seen_idlePoll config.engines eng n), ?_⟩
    rw [Slot.run_ticks config hidle.streaming]
    exact Slot.idle_rest hidle n

def drained (config : AfuConfig) (size : Nat) (mode : Mode) (a : Afu) : Afu :=
  Bus.serve (Bus.serve a (spanRequests config.engines size mode
    (Word.ofBit true config.engines - 1))) (Bus.repeated (config.busyPolls + 1) idlePoll)

theorem enabled_ne_zero (h : Afu.Sound config a) (hpos : 0 < config.engines) :
    (Bus.serve a [.write (8 * Register.enableMask)
      (Word.ofBit true config.engines - 1)]).enabled ≠ 0 := by
  obtain ⟨s, hs⟩ := h.exists_slot hpos
  have hmask : Word.bit (Word.ofBit true config.engines - 1) 0 = true := by
    rw [Word.bit_ofBit_sub_one h.few, decide_eq_true hpos]
  have hseen : Slot.seen config.engines 0 [.write (8 * Register.enableMask)
      (Word.ofBit true config.engines - 1)] = [.enable] := by
    simp only [Slot.seen_cons, Bus.Request.operation, Slot.event?_enable, hmask, if_true]
    rfl
  have hrunning : (s.apply config .enable).running = true := by
    rw [Slot.apply]
    split
    · assumption
    · rfl
  have hslot := h.slot?_of_seen hpos hs hseen
  exact Word.ne_zero_of_bit ((Afu.slot?_eq_some_iff.1 hslot).2.trans hrunning)

theorem completes_traffic {k : Bench σ α} {post : α → Afu → Prop} (h : Afu.Idle config faults a)
    (hfree : ∀ eng < config.engines, (faults eng).stalled = false) (hpos : 0 < config.engines)
    {size : Nat} (hsize : size < 2 ^ 16) (mode : Mode) {limit : Nat}
    (hlimit : config.busyPolls < limit) (hk : Completes k (drained config size mode a) post) :
    Completes (do
      ((List.range config.engines).map fun eng => (eng, config.reported)).forM
        fun (eng, _) => setUnlimited size mode eng
      enable (Word.ofBit true config.engines - 1)
      let _ ← waitStarted limit
      disable (Word.ofBit true config.engines - 1)
      let _ ← waitIdle limit
      k) a post := by
  have hset := h.toSound.serve ((List.range config.engines).flatMap (unlimitedRequests size mode))
  have hwait : Performs (σ := σ) (waitIdle limit)
      (Bus.serve a (spanRequests config.engines size mode (Word.ofBit true config.engines - 1)))
      (.ok config.busyPolls) (Bus.repeated (config.busyPolls + 1) idlePoll) [] := by
    refine performs_waitIdle (idle_span h hsize mode).toSound hpos ?_ hlimit
    intro eng heng
    obtain ⟨s, _, hidle, hspan⟩ := slot?_span h hsize mode heng
    exact ⟨_, hspan, rfl, hidle.stalled.trans (hfree eng heng), rfl⟩
  obtain ⟨x, more, out, hk, hpost⟩ := hk
  rw [drained] at hk hpost
  refine ⟨x, spanRequests config.engines size mode (Word.ofBit true config.engines - 1) ++
    (Bus.repeated (config.busyPolls + 1) idlePoll ++ more), out, ?_, ?_⟩
  · rw [spanRequests, Bus.serve_append] at hwait hk
    rw [spanRequests, List.append_assoc]
    refine (performs_setAll h.toSound (fun _ => List.mem_range.1) _ size mode).bind ?_
    refine (performs_enable hset _).bind ?_
    refine (performs_waitStarted (enabled_ne_zero hset hpos) limit).bind ?_
    refine (performs_disable _ _).bind ?_
    exact hwait.bind hk
  · rw [Bus.serve_append, Bus.serve_append]
    exact hpost

theorem idle_drained (h : Afu.Idle config faults a) {size : Nat} (hsize : size < 2 ^ 16)
    (mode : Mode) : Afu.Idle config faults (drained config size mode a) :=
  idle_wait (idle_span h hsize mode) _

theorem slot?_drained (h : Afu.Idle config faults a) {size : Nat} (hsize : size < 2 ^ 16)
    (mode : Mode) {eng : Nat} (heng : eng < config.engines) :
    ∃ e : Engine, (drained config size mode a).slot? eng =
      some ⟨(e.afterSpan config eng size mode).rest (config.busyPolls + 1), false⟩ := by
  obtain ⟨s, _, _, hspan⟩ := slot?_span h hsize mode heng
  refine ⟨s.engine, ?_⟩
  rw [drained, (idle_span h hsize mode).slot?_of_seen heng hspan (seen_idlePoll config.engines eng _),
    Slot.run_ticks config rfl]

theorem completes_bandwidth (h : Afu.Idle config faults a)
    (hfree : ∀ eng < config.engines, (faults eng).stalled = false) (hpos : 0 < config.engines)
    {size : Nat} (hsize : size < 2 ^ 16) (hmoves : 0 < size) (mode : Mode) {limit : Nat}
    (hlimit : config.busyPolls < limit) (mhz : Float) :
    Completes (σ := σ)
      (bandwidth (Word.ofBit true config.engines - 1)
        (List.replicate config.engines config.reported) size mode limit mhz) a
      fun _ b => Afu.Idle config faults b := by
  have hidle := idle_drained h hsize mode
  rw [bandwidth, selected_all h.few]
  refine completes_traffic h hfree hpos hsize mode hlimit ?_
  refine Completes.bind (looks_knownClock mhz _) ?_
  rintro mhz _ rfl
  refine Completes.bind (looks_read (by decide) _) ?_
  rintro cycles _ rfl
  refine (completes_mapM (fun b => b = drained config size mode a) ?_ rfl).bind ?_
  · rintro x hx _ rfl
    obtain ⟨eng, heng, rfl⟩ := List.mem_map.1 hx
    have hlt := List.mem_range.1 heng
    obtain ⟨e, hslot⟩ := slot?_drained h hsize mode hlt
    exact looks_measure hidle.toSound hlt hslot (moved_afterSpan hmoves hsize mode config eng e) mode
      mhz cycles config.reported
  · rintro results _ rfl
    exact completes_pure hidle

theorem completes_bandwidthAt (h : Afu.Idle config faults a)
    (hfree : ∀ eng < config.engines, (faults eng).stalled = false) (hpos : 0 < config.engines)
    {size : Nat} (hsize : size < 2 ^ 16) (hmoves : 0 < size) {limit : Nat}
    (hlimit : config.busyPolls < limit) (mhz : Float) :
    Completes (σ := σ)
      (bandwidthAt (Word.ofBit true config.engines - 1)
        (List.replicate config.engines config.reported) limit mhz size) a
      fun _ b => Afu.Idle config faults b := by
  rw [bandwidthAt]
  refine Completes.bind (looks_printLine _ a) ?_
  rintro _ _ rfl
  refine Completes.bind (looks_printLine _ _) ?_
  rintro _ _ rfl
  refine completes_foldlM _ ?_ mhz h
  intro mode _ mhz b hb
  refine (completes_bandwidth hb hfree hpos hsize hmoves mode hlimit mhz).bind ?_
  intro result c hc
  exact completes_pure hc

theorem completes_bandwidthAll (h : Afu.Idle config faults a)
    (hfree : ∀ eng < config.engines, (faults eng).stalled = false) {limit : Nat}
    (hlimit : config.busyPolls < limit) :
    Completes (σ := σ) (bandwidthAll (List.replicate config.engines config.reported) limit) a
      fun _ b => Afu.Idle config faults b := by
  cases hcount : config.engines with
  | zero => exact completes_pure h
  | succ count =>
    have hpos : 0 < config.engines := by omega
    rw [List.replicate_succ, bandwidthAll, ← List.replicate_succ, ← hcount, List.length_replicate]
    refine (completes_foldlM _ ?_ 0.0 h).bind ?_
    · intro size hsize mhz b hb
      obtain ⟨hmoves, hle⟩ := Capabilities.mem_bandwidthSizes hsize
      have hlt := config.maxBurst_reported_lt
      exact completes_bandwidthAt hb hfree hpos (by omega) hmoves hlimit mhz
    · intro mhz b hb
      exact completes_pure hb

end AfuBench.Bench
