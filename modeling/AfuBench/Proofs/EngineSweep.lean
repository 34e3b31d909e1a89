import AfuBench.Proofs.SweepCounters
import AfuBench.Proofs.SweepRun

namespace AfuBench

structure Afu.Idle (config : AfuConfig) (faults : Nat → Fault) (a : Afu) : Prop
    extends Sound config a where
  slot : ∀ eng < config.engines, ∃ s, a.slot? eng = some s ∧ s.Idle (faults eng)

namespace Afu.Idle

variable {config : AfuConfig} {faults : Nat → Fault} {a : Afu}

theorem serve (h : Idle config faults a) (eng : Nat) {requests : List Bus.Request}
    (hother : ∀ j < config.engines, eng ≠ j →
      ∃ n, Slot.seen config.engines j requests = List.replicate n .tick)
    (hslot : eng < config.engines →
      ∃ s, (Bus.serve a requests).slot? eng = some s ∧ s.Idle (faults eng)) :
    Idle config faults (Bus.serve a requests) where
  toSound := h.toSound.serve requests
  slot j hj := by
    by_cases he : eng = j
    · cases he
      exact hslot hj
    · obtain ⟨n, hseen⟩ := hother j hj he
      obtain ⟨s, hs, hidle⟩ := h.slot j hj
      refine ⟨_, h.slot?_of_seen hj hs hseen, ?_⟩
      rw [Slot.run_ticks config hidle.streaming]
      exact Slot.idle_rest hidle n

end Afu.Idle

namespace Afu

def faults (a : Afu) (eng : Nat) : Fault :=
  match a.engines[eng]? with
  | some e => ⟨e.stalled, e.corrupt⟩
  | none => ⟨false, false⟩

theorem faults_eq {a : Afu} {eng : Nat} {e : Engine} (he : a.engines[eng]? = some e) :
    a.faults eng = ⟨e.stalled, e.corrupt⟩ := by
  rw [faults, he]

theorem faults_eq_none {a : Afu} {eng : Nat}
    (h : ∀ e, a.engines[eng]? = some e → e.stalled = false ∧ e.corrupt = false) :
    a.faults eng = ⟨false, false⟩ := by
  rw [faults]
  cases he : a.engines[eng]? with
  | none => rfl
  | some e =>
    obtain ⟨hstalled, hcorrupt⟩ := h e he
    simp only [hstalled, hcorrupt]

theorem Reachable.idle {config : AfuConfig} (hv : config.Valid) {a : Afu}
    (ha : Reachable config a) (hoff : a.enabled = 0) : Idle config.clamp a.faults a where
  toSound := ha.sound hv
  slot eng heng := by
    obtain ⟨events, hs⟩ := ha.slot? hv heng
    obtain ⟨hengine, hbit⟩ := slot?_eq_some_iff.1 hs
    have hrunning : (Slot.idle.run config.clamp events).running = false := by
      rw [← hbit, hoff, Word.bit_zero]
    -- no event lets an engine stream that is not enabled, so an empty mask means silence
    have hstreams : (Slot.idle.run config.clamp events).StreamsEnabled :=
      Slot.streamsEnabled_run (fun h => absurd h Bool.false_ne_true) events
    refine ⟨_, hs, hrunning, ?_, ?_, ?_⟩
    · rw [← Bool.not_eq_true]
      intro hstream
      exact Bool.false_ne_true (hrunning.symm.trans (hstreams hstream))
    · rw [faults_eq hengine]
    · rw [faults_eq hengine]

end Afu

def Bench.runReport (config : AfuConfig) (eng : Nat) (corrupt : Bool) (run : SweepPoint × Mode) :
    List Console.Output :=
  .text (runLabel run.1 run.2) ::
    if run.2.reads ∧ corrupt then
      [.line " - FAIL", .line ("  0x" ++ hexWordFull (streamHash config.lineWords
        (Engine.laid config eng true (run.1.count * run.1.size))) ++ ", expected 0x" ++
          hexWordFull run.1.expected)]
    else [.line " - PASS"]

def Mode.verdict (corrupt : Bool) (trips : Nat) (mode : Mode) : Run :=
  ⟨!(mode.reads && corrupt), mode.reads, trips⟩

namespace SweepPoint.Fits

variable {config : AfuConfig} {eng : Nat} {point : SweepPoint}

theorem lines_pos (h : point.Fits config eng) : 0 < point.count * point.size :=
  Nat.mul_pos h.count_pos h.size_pos

theorem hash_ne_iff (h : point.Fits config eng) (hv : config.Valid) {corrupt : Bool} :
    streamHash config.lineWords (Engine.laid config eng corrupt (point.count * point.size)) ≠
      point.expected ↔ corrupt = true := by
  rw [h.expected, ne_eq, Engine.streamHash_laid_eq_iff hv h.lines_pos, Bool.not_eq_false]

theorem verdict_laid (h : point.Fits config eng) (hv : config.Valid) (corrupt : Bool) (mode : Mode)
    (trips : Nat) :
    Bench.verdict point mode (streamHash config.lineWords
      (Engine.laid config eng corrupt (point.count * point.size))) trips =
        mode.verdict corrupt trips := by
  simp only [Bench.verdict, h.hash_ne_iff hv, Mode.verdict]
  cases corrupt <;> cases mode <;> rfl

theorem runOutput_laid (h : point.Fits config eng) (hv : config.Valid) (corrupt : Bool)
    (mode : Mode) :
    Bench.runOutput point mode (streamHash config.lineWords
      (Engine.laid config eng corrupt (point.count * point.size))) =
        Bench.runReport config eng corrupt (point, mode) := by
  simp only [Bench.runOutput, Bench.verdictOutput, h.hash_ne_iff hv, Bench.runReport]
  by_cases hfail : mode.reads = true ∧ corrupt = true
  · rw [if_pos hfail, if_pos hfail, hfail.2]
  · rw [if_neg hfail, if_neg hfail]

end SweepPoint.Fits

theorem Bench.verdict_write (point : SweepPoint) (hash other : UInt64) (trips : Nat) :
    verdict point .write hash trips = verdict point .write other trips ∧
      runOutput point .write hash = runOutput point .write other :=
  ⟨rfl, rfl⟩

namespace Bench

variable {σ : Type} [Bus σ] [Afu.Host σ] {config : AfuConfig} {faults : Nat → Fault} {a : Afu}
  {eng limit : Nat} {point : SweepPoint}

def sweepStep (eng limit : Nat) (stats : SweepStats) (run : SweepPoint × Mode) :
    Bench σ SweepStats := do
  return stats.record (← runPoint eng limit run.1 run.2)

def RegionLaid (config : AfuConfig) (eng : Nat) (point : SweepPoint) (a : Afu) : Prop :=
  ∃ s, a.slot? eng = some s ∧
    s.engine.firstLines config.lineWords (point.count * point.size) =
      Engine.laid config eng s.engine.corrupt (point.count * point.size)

theorem idle_run (h : Afu.Idle config faults a) (heng : eng < config.engines)
    (hfits : point.Fits config eng) (mode : Mode) {polls : Nat}
    (hpolls : config.busyPolls ≤ polls) :
    Afu.Idle config faults (Bus.serve a (runRequests eng polls point mode)) := by
  obtain ⟨s, hs, hidle⟩ := h.slot eng heng
  refine h.serve eng ?_ ?_
  · intro j hj hne
    exact ⟨polls, by rw [Slot.seen_runRequests heng h.few, if_neg hne]⟩
  · intro _
    exact ⟨_, slot?_run h.toSound heng hs hidle hfits mode hpolls,
      Slot.idle_afterRun h.valid hidle hfits mode⟩

theorem regionLaid_run (h : Afu.Idle config faults a) (heng : eng < config.engines)
    (hfits : point.Fits config eng) {mode : Mode}
    (hlaid : mode.writes = true ∨ RegionLaid config eng point a) {polls : Nat}
    (hpolls : config.busyPolls ≤ polls) :
    RegionLaid config eng point (Bus.serve a (runRequests eng polls point mode)) := by
  obtain ⟨s, hs, hidle⟩ := h.slot eng heng
  refine ⟨_, slot?_run h.toSound heng hs hidle hfits mode hpolls, ?_⟩
  rw [Engine.corrupt_afterRun h.valid hfits]
  cases hwrites : mode.writes with
  | true => exact Engine.firstLines_afterRun_of_writes h.valid hfits hwrites s.engine
  | false =>
    obtain ⟨t, ht, hregion⟩ := hlaid.resolve_left (by rw [hwrites]; decide)
    cases hs.symm.trans ht
    rw [Engine.firstLines_afterRun_of_not_writes h.valid hfits hwrites, hregion]

theorem performs_sweepStep (h : Afu.Idle config faults a) (heng : eng < config.engines)
    (hfree : (faults eng).stalled = false) (hfits : point.Fits config eng) {mode : Mode}
    (hlaid : mode.writes = true ∨ RegionLaid config eng point a)
    (hlimit : config.busyPolls < limit) (stats : SweepStats) :
    Performs (σ := σ) (sweepStep eng limit stats (point, mode)) a
      (.ok (stats.record (mode.verdict (faults eng).corrupt config.busyPolls)))
      (runRequests eng (config.busyPolls + 1) point mode)
      (runReport config eng (faults eng).corrupt (point, mode)) := by
  obtain ⟨s, hs, hidle⟩ := h.slot eng heng
  have hrun := performs_runPoint (σ := σ) h.toSound heng hs hidle hfree hfits mode hlimit
  obtain ⟨t, ht, hregion⟩ := regionLaid_run h heng hfits hlaid (Nat.le_refl config.busyPolls)
  cases (slot?_run h.toSound heng hs hidle hfits mode (Nat.le_refl config.busyPolls)).symm.trans ht
  rw [Engine.corrupt_afterRun h.valid hfits, hidle.corrupt] at hregion
  have hjudged : verdict point mode (s.engine.afterRun config eng point mode).readHash
        config.busyPolls = mode.verdict (faults eng).corrupt config.busyPolls ∧
      runOutput point mode (s.engine.afterRun config eng point mode).readHash =
        runReport config eng (faults eng).corrupt (point, mode) := by
    rw [← hfits.verdict_laid h.valid, ← hfits.runOutput_laid h.valid]
    cases hreads : mode.reads with
    | true =>
      rw [Engine.readHash_afterRun h.valid hfits hreads, hregion]
      exact ⟨rfl, rfl⟩
    | false =>
      cases mode with
      | write => exact verdict_write point _ _ _
      | read => cases hreads
      | readWrite => cases hreads
  rw [hjudged.1, hjudged.2] at hrun
  exact hrun.bind_pure _

def runsRequests (eng polls : Nat) (runs : List (SweepPoint × Mode)) : List Bus.Request :=
  runs.flatMap fun run => runRequests eng polls run.1 run.2

def verdicts (corrupt : Bool) (trips : Nat) (runs : List (SweepPoint × Mode)) : List Run :=
  runs.map fun run => run.2.verdict corrupt trips

theorem sweepRuns_cons (point : SweepPoint) (points : List SweepPoint) :
    sweepRuns (point :: points) =
      (point, .write) :: (point, .read) :: (point, .readWrite) :: sweepRuns points := rfl

theorem idle_runs (h : Afu.Idle config faults a) (heng : eng < config.engines)
    {runs : List (SweepPoint × Mode)} (hfits : ∀ run ∈ runs, run.1.Fits config eng) {polls : Nat}
    (hpolls : config.busyPolls ≤ polls) :
    Afu.Idle config faults (Bus.serve a (runsRequests eng polls runs)) := by
  induction runs generalizing a with
  | nil => exact h
  | cons run runs ih =>
    rw [runsRequests, List.flatMap_cons, Bus.serve_append]
    refine ih ?_ fun r hr => hfits r (List.mem_cons_of_mem _ hr)
    exact idle_run h heng (hfits run List.mem_cons_self) run.2 hpolls

theorem performs_runs (h : Afu.Idle config faults a) (heng : eng < config.engines)
    (hfree : (faults eng).stalled = false) {points : List SweepPoint}
    (hfits : ∀ point ∈ points, point.Fits config eng) (hlimit : config.busyPolls < limit)
    (stats : SweepStats) :
    Performs (σ := σ) ((sweepRuns points).foldlM (sweepStep eng limit) stats) a
      (.ok ((verdicts (faults eng).corrupt config.busyPolls (sweepRuns points)).foldl
        SweepStats.record stats))
      (runsRequests eng (config.busyPolls + 1) (sweepRuns points))
      ((sweepRuns points).flatMap (runReport config eng (faults eng).corrupt)) := by
  have hpolls := Nat.le_succ config.busyPolls
  induction points generalizing a stats with
  | nil => exact performs_pure stats a
  | cons point points ih =>
    -- what the write run lays down is still there for the read run of the same point
    have hpoint := hfits point List.mem_cons_self
    have hwritten := idle_run h heng hpoint .write hpolls
    have hlaid := regionLaid_run h heng hpoint (Or.inl (show Mode.write.writes = true from rfl))
      hpolls
    have hread := idle_run hwritten heng hpoint .read hpolls
    have hboth := idle_run hread heng hpoint .readWrite hpolls
    rw [sweepRuns_cons, List.foldlM_cons]
    refine (performs_sweepStep h heng hfree hpoint (Or.inl rfl) hlimit stats).bind ?_
    rw [List.foldlM_cons]
    refine (performs_sweepStep hwritten heng hfree hpoint (Or.inr hlaid) hlimit _).bind ?_
    rw [List.foldlM_cons]
    refine (performs_sweepStep hread heng hfree hpoint (Or.inl rfl) hlimit _).bind ?_
    exact ih hboth (fun p hp => hfits p (List.mem_cons_of_mem _ hp)) _

def sweepHeading (config : AfuConfig) (eng : Nat) : String :=
  "Testing engine " ++ decimal eng ++ ", maximum burst size " ++
    decimal config.reported.maxBurst ++ ":"

def sweepRequests (config : AfuConfig) (eng : Nat) : List Bus.Request :=
  runsRequests eng (config.busyPolls + 1) (sweepRuns (config.points eng))

def sweepReport (config : AfuConfig) (corrupt : Bool) (eng : Nat) : List Console.Output :=
  .line (sweepHeading config eng) ::
    (sweepRuns (config.points eng)).flatMap (runReport config eng corrupt)

def sweepVerdicts (config : AfuConfig) (corrupt : Bool) (eng : Nat) : List Run :=
  verdicts corrupt config.busyPolls (sweepRuns (config.points eng))

theorem fits_of_mem_sweepRuns {run : SweepPoint × Mode}
    (hrun : run ∈ sweepRuns (config.points eng)) : run.1.Fits config eng := by
  obtain ⟨point, hpoint, hmem⟩ := List.mem_flatMap.1 hrun
  have hfirst : run.1 = point := by
    rcases List.mem_cons.1 hmem with rfl | hmem
    · rfl
    · rcases List.mem_cons.1 hmem with rfl | hmem
      · rfl
      · rw [List.mem_singleton.1 hmem]
  rw [hfirst]
  exact AfuConfig.fits_of_mem_points hpoint

theorem idle_sweep (h : Afu.Idle config faults a) (heng : eng < config.engines) :
    Afu.Idle config faults (Bus.serve a (sweepRequests config eng)) :=
  idle_runs h heng (fun _ => fits_of_mem_sweepRuns) (Nat.le_succ config.busyPolls)

theorem performs_sweep (h : Afu.Idle config faults a) (heng : eng < config.engines)
    (hfree : (faults eng).stalled = false) (hlimit : config.busyPolls < limit) :
    Performs (σ := σ) (sweep eng config.reported limit) a
      (.ok (.ofRuns (sweepVerdicts config (faults eng).corrupt eng))) (sweepRequests config eng)
      (sweepReport config (faults eng).corrupt eng) := by
  refine (performs_printLine _ a).bind ?_
  refine (performs_ofData (AfuConfig.sweepPoints_eq h.valid eng) _).bind ?_
  exact performs_runs h heng hfree (fun _ => AfuConfig.fits_of_mem_points) hlimit _

theorem exists_firstPoint (config : AfuConfig) (hsizes : 0 < config.reported.sweepSizes.length)
    (eng : Nat) :
    ∃ point points, config.points eng = point :: points := by
  have hpoints := config.length_points eng
  exact List.exists_cons_of_length_pos (by omega)

theorem performs_sweep_hang (h : Afu.Idle config faults a) (heng : eng < config.engines)
    {points : List SweepPoint} (hpoints : config.points eng = point :: points) (hlimit : 0 < limit)
    (hstuck : (faults eng).stalled = true ∨ limit ≤ config.busyPolls) :
    Performs (σ := σ) (sweep eng config.reported limit) a (.error (.hang limit))
      (hungRequests eng limit point .write)
      (.line (sweepHeading config eng) :: hungReport eng limit point .write a) := by
  have hfits : point.Fits config eng :=
    AfuConfig.fits_of_mem_points (by rw [hpoints]; exact List.mem_cons_self)
  obtain ⟨s, hs, hidle⟩ := h.slot eng heng
  have hrun := performs_runPoint_hang (σ := σ) h.toSound heng hs hidle hfits .write hlimit hstuck
  refine (performs_printLine _ a).bind ?_
  refine (performs_ofData (AfuConfig.sweepPoints_eq h.valid eng) _).bind ?_
  rw [hpoints]
  exact hrun.bind_error.bind_error

end Bench

end AfuBench
