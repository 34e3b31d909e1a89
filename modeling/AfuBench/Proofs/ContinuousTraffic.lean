import AfuBench.Bench.Bandwidth
import AfuBench.Proofs.SweepRun

namespace AfuBench

def Engine.afterSpan (config : AfuConfig) (eng size : Nat) (mode : Mode) (e : Engine) : Engine :=
  { e with
    readWord := Burst.toWord ⟨mode.reads, 0, size⟩
    writeWord := Burst.toWord ⟨mode.writes, 0, size⟩
    seed := UInt64.ofNat eng
    started := true
    streaming := false
    busy := config.busyPolls
    readBursts := mode.reads.toNat
    readLines := if mode.reads then size else 0
    writeLines := if mode.writes then size else 0 }

namespace Bench

def unlimitedRequests (size : Nat) (mode : Mode) (eng : Nat) : List Bus.Request :=
  [.write (8 * Register.engineIndex eng Register.readTraffic) (Burst.toWord ⟨mode.reads, 0, size⟩),
    .write (8 * Register.engineIndex eng Register.writeTraffic)
      (Burst.toWord ⟨mode.writes, 0, size⟩),
    .write (8 * Register.engineIndex eng Register.seed) (UInt64.ofNat eng)]

def spanRequests (engines size : Nat) (mode : Mode) (mask : UInt64) : List Bus.Request :=
  (List.range engines).flatMap (unlimitedRequests size mode) ++
    [.write (8 * Register.enableMask) mask, .read (8 * Register.runMask),
      .write (8 * Register.disableMask) mask]

end Bench

namespace Slot

def unlimitedEvents (size : Nat) (mode : Mode) (eng : Nat) : List Event :=
  [.write Register.readTraffic (Burst.toWord ⟨mode.reads, 0, size⟩),
    .write Register.writeTraffic (Burst.toWord ⟨mode.writes, 0, size⟩),
    .write Register.seed (UInt64.ofNat eng)]

theorem seen_unlimitedRequests {engines eng : Nat} (heng : eng < engines)
    (hlen : engines ≤ Register.maxEngines) (size : Nat) (mode : Mode) (j : Nat) :
    seen engines j (Bench.unlimitedRequests size mode eng) =
      if eng = j then unlimitedEvents size mode j else [] := by
  have hreg : ∀ reg < 3, reg < Register.perEngine := by decide
  simp only [Bench.unlimitedRequests, seen_cons, Bus.Request.operation,
    event?_writeEngine heng hlen (hreg Register.readTraffic (by decide)),
    event?_writeEngine heng hlen (hreg Register.writeTraffic (by decide)),
    event?_writeEngine heng hlen (hreg Register.seed (by decide))]
  by_cases hj : eng = j
  · cases hj
    simp only [if_true]
    rfl
  · simp only [if_neg hj]
    rfl

theorem seen_unlimitedAll {engines count : Nat} (hcount : count ≤ engines)
    (hlen : engines ≤ Register.maxEngines) (size : Nat) (mode : Mode) (j : Nat) :
    seen engines j ((List.range count).flatMap (Bench.unlimitedRequests size mode)) =
      if j < count then unlimitedEvents size mode j else [] := by
  induction count with
  | zero => rfl
  | succ count ih =>
    rw [List.range_succ, List.flatMap_append, List.flatMap_singleton, seen_append,
      ih (by omega), seen_unlimitedRequests (by omega) hlen]
    rcases Nat.lt_trichotomy j count with hlt | rfl | hgt
    · rw [if_pos hlt, if_neg (by omega), if_pos (by omega), List.append_nil]
    · rw [if_neg (by omega), if_pos rfl, if_pos (by omega), List.nil_append]
    · rw [if_neg (by omega), if_neg (by omega), if_neg (by omega), List.nil_append]

theorem seen_spanRequests {engines j : Nat} (hj : j < engines)
    (hlen : engines ≤ Register.maxEngines) (size : Nat) (mode : Mode) {mask : UInt64}
    (hmask : Word.bit mask j = true) :
    seen engines j (Bench.spanRequests engines size mode mask) =
      unlimitedEvents size mode j ++ [.enable, .disable] := by
  have hevents : seen engines j [.write (8 * Register.enableMask) mask,
      .read (8 * Register.runMask), .write (8 * Register.disableMask) mask] =
        [.enable, .disable] := by
    simp only [seen_cons, Bus.Request.operation, event?_enable, event?_disable, hmask, if_true,
      event?_read (show Register.runMask ≠ Register.activeMask by decide)]
    rfl
  rw [Bench.spanRequests, seen_append, seen_unlimitedAll (Nat.le_refl engines) hlen, if_pos hj,
    hevents]

theorem run_spanEvents (config : AfuConfig) {s : Slot} {fault : Fault} (hs : s.Idle fault)
    {size : Nat} (hsize : size < 2 ^ 16) (mode : Mode) (eng : Nat) :
    s.run config (unlimitedEvents size mode eng ++ [.enable, .disable]) =
      ⟨s.engine.afterSpan config eng size mode, false⟩ := by
  obtain ⟨e, running⟩ := s
  cases hs.running
  let aimed : Engine := { e with
    readWord := Burst.toWord ⟨mode.reads, 0, size⟩
    writeWord := Burst.toWord ⟨mode.writes, 0, size⟩
    seed := UInt64.ofNat eng }
  have hreading : aimed.reading = ⟨mode.reads, 0, size⟩ :=
    Burst.ofWord_toWord (b := ⟨mode.reads, 0, size⟩) (show 0 < 2 ^ 16 by decide) hsize
  have hwriting : aimed.writing = ⟨mode.writes, 0, size⟩ :=
    Burst.ofWord_toWord (b := ⟨mode.writes, 0, size⟩) (show 0 < 2 ^ 16 by decide) hsize
  have hendless : aimed.unlimited = true := by
    rw [Engine.unlimited, hreading, hwriting]
    cases mode <;> rfl
  change (⟨((aimed.start config).1).stop config, false⟩ : Slot) = _
  rw [Engine.start_unlimited hendless, hreading, hwriting]
  rfl

theorem idle_afterSpan {s : Slot} {fault : Fault} (hs : s.Idle fault) (config : AfuConfig)
    (eng size : Nat) (mode : Mode) : Idle fault ⟨s.engine.afterSpan config eng size mode, false⟩ :=
  ⟨rfl, rfl, hs.stalled, hs.corrupt⟩

end Slot

namespace Bench

variable {σ : Type} [Bus σ] [Afu.Host σ] {config : AfuConfig} {a : Afu}

theorem selected_all {engines : Nat} (hlen : engines ≤ Register.maxEngines) (c : Capabilities) :
    selected (Word.ofBit true engines - 1) (List.replicate engines c) =
      (List.range engines).map fun eng => (eng, c) := by
  have hzip : (List.replicate engines c).zipIdx = (List.range engines).map fun eng => (c, eng) := by
    apply List.ext_getElem?
    intro i
    by_cases hi : i < engines
    · simp [hi]
    · simp [hi]
  have hkeep : ∀ x ∈ (List.replicate engines c).zipIdx,
      Word.bit (Word.ofBit true engines - 1) x.2 = true := by
    intro x hx
    rw [hzip] at hx
    obtain ⟨eng, heng, rfl⟩ := List.mem_map.1 hx
    have hlt := List.mem_range.1 heng
    rw [Word.bit_ofBit_sub_one hlen, decide_eq_true hlt]
  rw [selected, List.filter_eq_self.2 hkeep, hzip, List.map_map]
  rfl

theorem performs_setUnlimited (h : Afu.Sound config a) {eng : Nat} (heng : eng < config.engines)
    (size : Nat) (mode : Mode) :
    Performs (σ := σ) (setUnlimited size mode eng) a (.ok ()) (unlimitedRequests size mode eng)
      [] := by
  refine (performs_writeEngine h heng (by decide) _).bind ?_
  refine (performs_writeEngine (h.serve _) heng (by decide) _).bind ?_
  exact performs_writeEngine ((h.serve _).serve _) heng (by decide) _

theorem performs_setAll (h : Afu.Sound config a) {engines : List Nat}
    (hengines : ∀ eng ∈ engines, eng < config.engines) (c : Capabilities) (size : Nat)
    (mode : Mode) :
    Performs (σ := σ)
      ((engines.map fun eng => (eng, c)).forM fun (eng, _) => setUnlimited size mode eng) a
      (.ok ()) (engines.flatMap (unlimitedRequests size mode)) [] := by
  induction engines generalizing a with
  | nil => exact performs_pure () a
  | cons eng engines ih =>
    rw [List.flatMap_cons]
    refine (performs_setUnlimited h (hengines eng List.mem_cons_self) size mode).bind ?_
    exact ih (h.serve _) fun j hj => hengines j (List.mem_cons_of_mem eng hj)

end Bench

end AfuBench
