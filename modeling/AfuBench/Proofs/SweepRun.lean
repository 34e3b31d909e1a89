import AfuBench.Proofs.RunEffect

namespace AfuBench

structure Fault where
  stalled : Bool
  corrupt : Bool
  deriving DecidableEq, Repr

structure Slot.Idle (fault : Fault) (s : Slot) : Prop where
  running : s.running = false
  streaming : s.engine.streaming = false
  stalled : s.engine.stalled = fault.stalled
  corrupt : s.engine.corrupt = fault.corrupt

structure Engine.Underway (config : AfuConfig) (fault : Fault) (e : Engine) : Prop where
  streaming : e.streaming = false
  stalled : e.stalled = fault.stalled
  started : e.started = true
  busy : e.busy = config.busyPolls

namespace Bench

def startRequests (eng : Nat) (point : SweepPoint) (mode : Mode) : List Bus.Request :=
  [.write (8 * Register.engineIndex eng Register.readTraffic)
      (Burst.toWord ⟨mode.reads, point.count, point.size⟩),
    .write (8 * Register.engineIndex eng Register.writeTraffic)
      (Burst.toWord ⟨mode.writes, point.count, point.size⟩),
    .write (8 * Register.engineIndex eng Register.seed) (engineSeed eng),
    .write (8 * Register.enableMask) (Word.ofBit true eng)]

def endRequests (eng : Nat) : List Bus.Request :=
  [.write (8 * Register.disableMask) (Word.ofBit true eng),
    .read (8 * Register.engineIndex eng Register.readHash)]

def runRequests (eng polls : Nat) (point : SweepPoint) (mode : Mode) : List Bus.Request :=
  startRequests eng point mode ++ (Bus.repeated polls donePoll ++ endRequests eng)

def runLabel (point : SweepPoint) (mode : Mode) : String :=
  "  " ++ mode.label ++ " " ++ padLeft 2 ' ' (decimal point.count) ++ " bursts of " ++
    padLeft 2 ' ' (decimal point.size) ++ " lines"

def verdictOutput (point : SweepPoint) (mode : Mode) (hash : UInt64) : List Console.Output :=
  if mode.reads ∧ hash ≠ point.expected then
    [.line " - FAIL",
      .line ("  0x" ++ hexWordFull hash ++ ", expected 0x" ++ hexWordFull point.expected)]
  else [.line " - PASS"]

def runOutput (point : SweepPoint) (mode : Mode) (hash : UInt64) : List Console.Output :=
  .text (runLabel point mode) :: verdictOutput point mode hash

def verdict (point : SweepPoint) (mode : Mode) (hash : UInt64) (trips : Nat) : Run :=
  if mode.reads ∧ hash ≠ point.expected then ⟨false, true, trips⟩ else ⟨true, mode.reads, trips⟩

end Bench

namespace Slot

def startEvents (eng : Nat) (point : SweepPoint) (mode : Mode) : List Event :=
  [.write Register.readTraffic (Burst.toWord ⟨mode.reads, point.count, point.size⟩),
    .write Register.writeTraffic (Burst.toWord ⟨mode.writes, point.count, point.size⟩),
    .write Register.seed (engineSeed eng), .enable]

section

variable {engines eng : Nat}

theorem seen_startRequests (heng : eng < engines) (hlen : engines ≤ Register.maxEngines)
    (point : SweepPoint) (mode : Mode) (j : Nat) :
    seen engines j (Bench.startRequests eng point mode) =
      if eng = j then startEvents eng point mode else [] := by
  have h64 : eng < 64 := Nat.lt_of_lt_of_le heng (Nat.le_trans hlen (by decide))
  have hreg : ∀ reg < 3, reg < Register.perEngine := by decide
  simp only [Bench.startRequests, seen_cons, Bus.Request.operation, event?_enable,
    event?_writeEngine heng hlen (hreg Register.readTraffic (by decide)),
    event?_writeEngine heng hlen (hreg Register.writeTraffic (by decide)),
    event?_writeEngine heng hlen (hreg Register.seed (by decide)), Word.bit_ofBit true h64]
  by_cases hj : eng = j
  · simp only [hj, if_true, decide_true, Bool.and_self]
    rfl
  · simp only [hj, if_false, decide_false, Bool.and_false, Bool.false_eq_true]
    rfl

theorem seen_endRequests (heng : eng < engines) (hlen : engines ≤ Register.maxEngines) (j : Nat) :
    seen engines j (Bench.endRequests eng) = if eng = j then [.disable] else [] := by
  have h64 : eng < 64 := Nat.lt_of_lt_of_le heng (Nat.le_trans hlen (by decide))
  have hindex : Register.engineIndex eng Register.readHash ≠ Register.activeMask :=
    Register.engineIndex_ne_activeMask (Nat.lt_of_lt_of_le heng hlen) (by decide)
  simp only [Bench.endRequests, seen_cons, Bus.Request.operation, event?_disable,
    event?_read hindex, Word.bit_ofBit true h64]
  by_cases hj : eng = j
  · simp only [hj, if_true, decide_true, Bool.and_self]
    rfl
  · simp only [hj, if_false, decide_false, Bool.and_false, Bool.false_eq_true]
    rfl

theorem seen_runRequests (heng : eng < engines) (hlen : engines ≤ Register.maxEngines)
    (polls : Nat) (point : SweepPoint) (mode : Mode) (j : Nat) :
    seen engines j (Bench.runRequests eng polls point mode) =
      if eng = j then startEvents eng point mode ++ (List.replicate polls .tick ++ [.disable])
      else List.replicate polls .tick := by
  rw [Bench.runRequests, seen_append, seen_append, seen_startRequests heng hlen,
    seen_endRequests heng hlen, Bench.seen_donePoll]
  by_cases hj : eng = j
  · simp only [if_pos hj]
  · simp only [if_neg hj, List.nil_append, List.append_nil]

end

theorem run_startEvents (config : AfuConfig) {s : Slot} (hs : s.running = false) (eng : Nat)
    (point : SweepPoint) (mode : Mode) :
    s.run config (startEvents eng point mode) =
      ⟨((s.engine.aimed eng point mode).start config).1, true⟩ := by
  obtain ⟨e, running⟩ := s
  cases hs
  rfl

theorem Idle.underway {config : AfuConfig} (hv : config.Valid) {s : Slot} {fault : Fault}
    (hs : s.Idle fault) {eng : Nat} {point : SweepPoint} (hfits : point.Fits config eng)
    (mode : Mode) :
    ((s.engine.aimed eng point mode).start config).1.Underway config fault where
  streaming := (Engine.streaming_afterRun hv hfits mode s.engine).trans hs.streaming
  stalled := (Engine.stalled_afterRun hv hfits mode s.engine).trans hs.stalled
  started := by rw [Engine.start_aimed hv hfits]
  busy := by rw [Engine.start_aimed hv hfits]

theorem run_runEvents {config : AfuConfig} (hv : config.Valid) {s : Slot} {fault : Fault}
    (hs : s.Idle fault) {eng : Nat} {point : SweepPoint} (hfits : point.Fits config eng)
    (mode : Mode) {polls : Nat} (hpolls : config.busyPolls ≤ polls) :
    s.run config (startEvents eng point mode ++ (List.replicate polls .tick ++ [.disable])) =
      ⟨s.engine.afterRun config eng point mode, false⟩ := by
  have hunder := hs.underway hv hfits mode
  have hrest : ((s.engine.aimed eng point mode).start config).1.rest polls =
      s.engine.afterRun config eng point mode := by
    rw [Engine.rest, hunder.busy, Nat.sub_eq_zero_of_le hpolls, Engine.afterRun]
  have hstop : (s.engine.afterRun config eng point mode).stop config =
      s.engine.afterRun config eng point mode := by
    rw [Engine.stop, if_neg (by rw [Engine.streaming_afterRun hv hfits, hs.streaming]; decide)]
  rw [run_append, run_append, run_startEvents config hs.running,
    run_ticks config hunder.streaming, hrest]
  change (⟨(s.engine.afterRun config eng point mode).stop config, false⟩ : Slot) = _
  rw [hstop]

theorem idle_afterRun {config : AfuConfig} (hv : config.Valid) {s : Slot} {fault : Fault}
    (hs : s.Idle fault) {eng : Nat} {point : SweepPoint} (hfits : point.Fits config eng)
    (mode : Mode) : Idle fault ⟨s.engine.afterRun config eng point mode, false⟩ where
  running := rfl
  streaming := (Engine.streaming_afterRun hv hfits mode s.engine).trans hs.streaming
  stalled := (Engine.stalled_afterRun hv hfits mode s.engine).trans hs.stalled
  corrupt := (Engine.corrupt_afterRun hv hfits mode s.engine).trans hs.corrupt

theorem idle_rest {s : Slot} {fault : Fault} (hs : s.Idle fault) (n : Nat) :
    Idle fault ⟨s.engine.rest n, s.running⟩ :=
  ⟨hs.running, hs.streaming, hs.stalled, hs.corrupt⟩

end Slot

namespace Bench

variable {σ : Type} [Bus σ] [Afu.Host σ] {config : AfuConfig} {a : Afu} {eng : Nat} {s : Slot}
  {fault : Fault} {point : SweepPoint}

theorem slot?_start (h : Afu.Sound config a) (heng : eng < config.engines)
    (hs : a.slot? eng = some s) (hidle : s.Idle fault) (point : SweepPoint) (mode : Mode) :
    (Bus.serve a (startRequests eng point mode)).slot? eng =
      some ⟨((s.engine.aimed eng point mode).start config).1, true⟩ := by
  rw [h.slot?_serve heng, hs, Slot.seen_startRequests heng h.few, if_pos rfl, Option.map_some,
    Slot.run_startEvents config hidle.running]

theorem slot?_run (h : Afu.Sound config a) (heng : eng < config.engines)
    (hs : a.slot? eng = some s) (hidle : s.Idle fault) (hfits : point.Fits config eng)
    (mode : Mode) {polls : Nat} (hpolls : config.busyPolls ≤ polls) :
    (Bus.serve a (runRequests eng polls point mode)).slot? eng =
      some ⟨s.engine.afterRun config eng point mode, false⟩ := by
  rw [h.slot?_serve heng, hs, Slot.seen_runRequests heng h.few, if_pos rfl, Option.map_some,
    Slot.run_runEvents h.valid hidle hfits mode hpolls]

theorem performs_start {α : Type} {k : Bench σ α} {r : Except BenchError α}
    {more : List Bus.Request} {out : List Console.Output} (h : Afu.Sound config a)
    (heng : eng < config.engines) (mode : Mode)
    (hk : Performs k (Bus.serve a (startRequests eng point mode)) r more out) :
    Performs (do
      writeEngine eng Register.readTraffic (Burst.toWord ⟨mode.reads, point.count, point.size⟩)
      writeEngine eng Register.writeTraffic (Burst.toWord ⟨mode.writes, point.count, point.size⟩)
      writeEngine eng Register.seed (engineSeed eng)
      enable (Word.ofBit true eng)
      k) a r (startRequests eng point mode ++ more) out := by
  refine (performs_writeEngine h heng (by decide) _).bind ?_
  refine (performs_writeEngine (h.serve _) heng (by decide) _).bind ?_
  refine (performs_writeEngine ((h.serve _).serve _) heng (by decide) _).bind ?_
  exact (performs_enable (((h.serve _).serve _).serve _) _).bind hk

def judge (point : SweepPoint) (mode : Mode) (trips : Nat) (hash : UInt64) : Bench σ Run :=
  if mode.reads ∧ hash ≠ point.expected then do
    printLine " - FAIL"
    printLine ("  0x" ++ hexWordFull hash ++ ", expected 0x" ++ hexWordFull point.expected)
    return ⟨false, true, trips⟩
  else do
    printLine " - PASS"
    return ⟨true, mode.reads, trips⟩

theorem performs_judge (point : SweepPoint) (mode : Mode) (trips : Nat) (hash : UInt64) (a : Afu) :
    Performs (σ := σ) (judge point mode trips hash) a (.ok (verdict point mode hash trips)) []
      (verdictOutput point mode hash) := by
  rw [judge, verdict, verdictOutput]
  by_cases hfail : mode.reads ∧ hash ≠ point.expected
  · rw [if_pos hfail, if_pos hfail, if_pos hfail]
    exact (performs_printLine _ a).bind ((performs_printLine _ _).bind (performs_pure _ _))
  · rw [if_neg hfail, if_neg hfail, if_neg hfail]
    exact (performs_printLine _ a).bind (performs_pure _ _)

theorem performs_runPoint (h : Afu.Sound config a) (heng : eng < config.engines)
    (hs : a.slot? eng = some s) (hidle : s.Idle fault) (hfree : fault.stalled = false)
    (hfits : point.Fits config eng) (mode : Mode) {limit : Nat} (hlimit : config.busyPolls < limit) :
    Performs (σ := σ) (runPoint eng limit point mode) a
      (.ok (verdict point mode (s.engine.afterRun config eng point mode).readHash
        config.busyPolls))
      (runRequests eng (config.busyPolls + 1) point mode)
      (runOutput point mode (s.engine.afterRun config eng point mode).readHash) := by
  have hstarted := slot?_start h heng hs hidle point mode
  have hunder := hidle.underway h.valid hfits mode
  have hwait := performs_waitDone (σ := σ) (h.serve _) heng hstarted rfl hunder.streaming
    (hunder.stalled.trans hfree) (Nat.lt_of_le_of_lt (Nat.le_of_eq hunder.busy) hlimit)
  rw [hunder.busy] at hwait
  have hended : (Bus.serve (Bus.serve (Bus.serve a (startRequests eng point mode))
      (Bus.repeated (config.busyPolls + 1) donePoll))
        [.write (8 * Register.disableMask) (Word.ofBit true eng)]).slot? eng =
      some ⟨s.engine.afterRun config eng point mode, false⟩ := by
    have hend := slot?_run h heng hs hidle hfits mode (Nat.le_succ config.busyPolls)
    have hindex : Register.engineIndex eng Register.readHash ≠ Register.activeMask :=
      Register.engineIndex_ne_activeMask (h.lt_maxEngines heng) (by decide)
    have hread : ∀ b : Afu, Bus.serve b (endRequests eng) =
        Bus.serve b [.write (8 * Register.disableMask) (Word.ofBit true eng)] :=
      fun b => Afu.serve_read hindex _ []
    rw [runRequests, Bus.serve_append, Bus.serve_append, hread] at hend
    exact hend
  refine (performs_print _ a).bind ?_
  refine performs_start h heng mode ?_
  refine (hwait.tryCatch_ok).bind ?_
  refine (performs_disable _ _).bind ?_
  exact (performs_readEngine (((h.serve _).serve _).serve _) heng (by decide) hended).bind
    (performs_judge point mode _ _ _)

def describeRequests (eng : Nat) : List Bus.Request :=
  [.read (8 * Register.engineIndex eng Register.status),
    .read (8 * Register.engineIndex eng Register.readBursts),
    .read (8 * Register.engineIndex eng Register.readLines),
    .read (8 * Register.engineIndex eng Register.writeLines)]

def describeReport (eng : Nat) (a : Afu) : List Console.Output :=
  let register (reg : Nat) : UInt64 := (a.readWord (Register.engineIndex eng reg)).1
  let activity := Activity.ofWord (register Register.status)
  [.line ("  Engine " ++ decimal eng ++ " state:"),
    .line ("    active: " ++ bitDigit activity.active),
    .line ("    running: " ++ bitDigit activity.running),
    .line ("    in reset: " ++ bitDigit activity.inReset),
    .line ("    waitrequest: " ++ bitDigit activity.waitRequest),
    .line ("    read burst requests: " ++ decimal (register Register.readBursts).toNat),
    .line ("    read line responses: " ++ decimal (register Register.readLines).toNat),
    .line ("    write line requests: " ++ decimal (register Register.writeLines).toNat)]

theorem performs_describeEngine (heng : eng < Register.maxEngines) (a : Afu) :
    Performs (σ := σ) (describeEngine eng) a (.ok ()) (describeRequests eng)
      (describeReport eng a) := by
  have hstay : ∀ reg < Register.perEngine,
      Bus.serve a [.read (8 * Register.engineIndex eng reg)] = a := fun reg hreg =>
    Afu.serve_read (Register.engineIndex_ne_activeMask heng hreg) a []
  refine (performs_readEngineWord heng (by decide) a).bind ?_
  rw [hstay _ (by decide)]
  refine (performs_printLine _ _).bind ?_
  refine (performs_printLine _ _).bind ?_
  refine (performs_printLine _ _).bind ?_
  refine (performs_printLine _ _).bind ?_
  refine (performs_printLine _ _).bind ?_
  refine (performs_readEngineWord heng (by decide) a).bind ?_
  rw [hstay _ (by decide)]
  refine (performs_printLine _ _).bind ?_
  refine (performs_readEngineWord heng (by decide) a).bind ?_
  rw [hstay _ (by decide)]
  refine (performs_printLine _ _).bind ?_
  refine (performs_readEngineWord heng (by decide) a).bind ?_
  exact performs_printLine _ _

def hangRequests (eng : Nat) : List Bus.Request :=
  donePoll ++ describeRequests eng

def hangReport (eng : Nat) (a : Afu) : List Console.Output :=
  .line " - HANG!" :: .line "" ::
    .line ("Aborting - enabled mask 0x" ++ hexWord a.enabled ++ ", active mask 0x" ++
      hexWord a.activeMask) ::
        describeReport eng (Bus.serve a donePoll)

theorem performs_describeHang (heng : eng < Register.maxEngines) (a : Afu) :
    Performs (σ := σ) (describeHang eng) a (.ok ()) (hangRequests eng) (hangReport eng a) := by
  refine (performs_printLine _ a).bind ?_
  refine (performs_printLine _ a).bind ?_
  refine (performs_read Register.runMask a).bind ?_
  refine (performs_read Register.activeMask _).bind ?_
  refine (performs_printLine _ _).bind ?_
  exact performs_describeEngine heng _

def hungRequests (eng limit : Nat) (point : SweepPoint) (mode : Mode) : List Bus.Request :=
  startRequests eng point mode ++ (Bus.repeated limit donePoll ++ hangRequests eng)

def hungReport (eng limit : Nat) (point : SweepPoint) (mode : Mode) (a : Afu) :
    List Console.Output :=
  .text (runLabel point mode) ::
    hangReport eng (Bus.serve (Bus.serve a (startRequests eng point mode))
      (Bus.repeated limit donePoll))

theorem performs_runPoint_hang (h : Afu.Sound config a) (heng : eng < config.engines)
    (hs : a.slot? eng = some s) (hidle : s.Idle fault) (hfits : point.Fits config eng)
    (mode : Mode) {limit : Nat} (hlimit : 0 < limit)
    (hstuck : fault.stalled = true ∨ limit ≤ config.busyPolls) :
    Performs (σ := σ) (runPoint eng limit point mode) a (.error (.hang limit))
      (hungRequests eng limit point mode) (hungReport eng limit point mode a) := by
  have hstarted := slot?_start h heng hs hidle point mode
  have hunder := hidle.underway h.valid hfits mode
  have hwait := performs_waitDone_hang (σ := σ) (h.serve _) heng hstarted rfl hunder.streaming
    hlimit (by
      rcases hstuck with hstall | hlate
      · exact Or.inl ⟨hunder.stalled.trans hstall, hunder.started⟩
      · exact Or.inr (Nat.le_trans hlate (Nat.le_of_eq hunder.busy.symm)))
  have hawait : Performs (σ := σ) (awaitRun eng limit)
      (Bus.serve a (startRequests eng point mode)) (.error (.hang limit))
      (Bus.repeated limit donePoll ++ (hangRequests eng ++ []))
      ([] ++ (hangReport eng (Bus.serve (Bus.serve a (startRequests eng point mode))
        (Bus.repeated limit donePoll)) ++ [])) :=
    hwait.tryCatch_error
      ((performs_describeHang (h.lt_maxEngines heng) _).bind (performs_throw _ _))
  rw [List.append_nil, List.append_nil] at hawait
  refine (performs_print _ a).bind ?_
  exact performs_start h heng mode hawait.bind_error

end Bench

end AfuBench
