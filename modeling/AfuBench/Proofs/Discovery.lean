import AfuBench.Bench.LocalMemory
import AfuBench.Proofs.EngineEvents
import AfuBench.Proofs.RegisterFields

namespace AfuBench

theorem Afu.serve_reads {indices : List Nat} (h : ∀ i ∈ indices, i ≠ Register.activeMask) (a : Afu) :
    Bus.serve a (indices.map fun i => .read (8 * i)) = a := by
  induction indices with
  | nil => rfl
  | cons i indices ih =>
    rw [List.map_cons, serve_read (h i List.mem_cons_self)]
    exact ih fun j hj => h j (List.mem_cons_of_mem i hj)

namespace Bench

def discoveryWords (engines : Nat) : List Nat :=
  Register.globalIndex 1 :: Register.globalIndex 0 :: Register.configuration ::
    (List.range engines).map fun eng => Register.engineIndex eng Register.status

def discoveryRequests (engines : Nat) : List Bus.Request :=
  (discoveryWords engines).map fun i => .read (8 * i)

def discoveryReport (config : AfuConfig) (a : Afu) : List Console.Output :=
  .line ("Test ID: " ++ hexWordFull (a.globals.getD 1 0) ++ " " ++
      hexWordFull (a.globals.getD 0 0)) ::
    .line ("Engines: " ++ decimal config.engines) ::
      ((List.range config.engines).flatMap fun eng =>
        (config.reported.describe eng).map Console.Output.line) ++ [.line ""]

section

variable {σ : Type} [Bus σ]

def discoverAll : Bench σ (List Capabilities) := do
  let idHigh ← readGlobal 1
  let idLow ← readGlobal 0
  printLine ("Test ID: " ++ hexWordFull idHigh ++ " " ++ hexWordFull idLow)
  let engines ← engineCount
  printLine ("Engines: " ++ decimal engines)
  let caps ← (List.range engines).mapM discover
  printLine ""
  return caps

def testEngines (limit : Nat) (caps : List Capabilities) : Bench σ SweepStats := do
  let (stats, clean) ← sweepEngines limit 0 caps .empty
  if clean then bandwidthAll caps limit
  return stats

theorem localMemoryTest_eq (limit : Nat) :
    localMemoryTest (σ := σ) limit = discoverAll >>= testEngines limit := by
  simp only [localMemoryTest, discoverAll, testEngines, bind_assoc, pure_bind]

end

variable {σ : Type} [Bus σ] [Afu.Host σ] {config : AfuConfig} {a : Afu}

theorem performs_readGlobal {reg : Nat} (hreg : reg < Register.globalCount) (a : Afu) :
    Performs (σ := σ) (readGlobal reg) a (.ok (a.globals.getD reg 0))
      [.read (8 * Register.globalIndex reg)] [] := by
  have hword : (a.readWord (Register.globalIndex reg)).1 = a.globals.getD reg 0 := by
    rw [Afu.readWord, Register.source_globalIndex hreg]
  rw [readGlobal, if_neg (Nat.not_le_of_gt hreg), ← hword]
  exact performs_read _ a

theorem performs_engineCount (h : Afu.Sound config a) :
    Performs (σ := σ) engineCount a (.ok config.engines)
      [.read (8 * Register.configuration)] [] := by
  have hcount : Register.configEngines (a.readWord Register.configuration).1 = config.engines := by
    rw [← h.length_eq]
    exact Register.configEngines_configWord h.length_le _
  rw [← hcount]
  exact (performs_read Register.configuration a).bind (performs_pure _ _)

theorem performs_printLines (lines : List String) (a : Afu) :
    Performs (σ := σ) (lines.forM printLine) a (.ok ()) [] (lines.map .line) := by
  induction lines with
  | nil => exact performs_pure () a
  | cons line lines ih => exact (performs_printLine line a).bind ih

theorem performs_discover (h : Afu.Sound config a) {eng : Nat} (heng : eng < config.engines) :
    Performs (σ := σ) (discover eng) a (.ok config.reported)
      [.read (8 * Register.engineIndex eng Register.status)]
      ((config.reported.describe eng).map .line) := by
  obtain ⟨s, hs⟩ := h.exists_slot heng
  have hcaps : Capabilities.ofWord (s.engine.readRegister config s.running Register.status) =
      config.reported :=
    AfuConfig.ofWord_statusWord h.valid _
  refine (performs_readEngine h heng (by decide) hs).bind ?_
  rw [hcaps]
  exact (performs_printLines _ _).bind_pure _

theorem performs_discoverAll (h : Afu.Sound config a) {engines : List Nat}
    (hengines : ∀ eng ∈ engines, eng < config.engines) :
    Performs (σ := σ) (engines.mapM discover) a
      (.ok (List.replicate engines.length config.reported))
      ((engines.map fun eng => Register.engineIndex eng Register.status).map
        fun i => .read (8 * i))
      (engines.flatMap fun eng => (config.reported.describe eng).map Console.Output.line) := by
  induction engines with
  | nil => exact performs_pure [] a
  | cons eng engines ih =>
    have heng := hengines eng List.mem_cons_self
    have hstay : Bus.serve a [.read (8 * Register.engineIndex eng Register.status)] = a :=
      Afu.serve_read (Register.engineIndex_ne_activeMask (h.lt_maxEngines heng) (by decide)) a []
    rw [List.mapM_cons, List.map_cons, List.map_cons, List.flatMap_cons]
    refine (performs_discover h heng).bind ?_
    rw [hstay]
    exact (ih fun j hj => hengines j (List.mem_cons_of_mem eng hj)).bind_pure _

theorem performs_localMemoryTest (h : Afu.Sound config a) {limit : Nat}
    {r : Except BenchError SweepStats} {more : List Bus.Request} {out : List Console.Output}
    (hrest : Performs (σ := σ)
      (testEngines limit (List.replicate config.engines config.reported)) a r more out) :
    Performs (σ := σ) (localMemoryTest limit) a r (discoveryRequests config.engines ++ more)
      (discoveryReport config a ++ out) := by
  have hrange : ∀ eng ∈ List.range config.engines, eng < config.engines := fun _ =>
    List.mem_range.1
  have hall := performs_discoverAll (σ := σ) h hrange
  rw [List.length_range] at hall
  rw [discoveryRequests, discoveryWords, discoveryReport, List.cons_append, List.cons_append,
    List.append_assoc]
  refine (performs_readGlobal (by decide) a).bind ?_
  rw [Afu.serve_read (by decide) a []]
  refine (performs_readGlobal (by decide) a).bind ?_
  rw [Afu.serve_read (by decide) a []]
  refine (performs_printLine _ a).bind ?_
  refine (performs_engineCount h).bind ?_
  rw [Afu.serve_read (by decide) a []]
  refine (performs_printLine _ a).bind ?_
  refine hall.bind ?_
  rw [Afu.serve_reads]
  · exact (performs_printLine _ a).bind hrest
  · intro i hi
    obtain ⟨eng, heng, rfl⟩ := List.mem_map.1 hi
    exact Register.engineIndex_ne_activeMask (h.lt_maxEngines (List.mem_range.1 heng)) (by decide)

end Bench

end AfuBench
