import AfuBench.Proofs.SweepCounters
import AfuBench.Proofs.SweepRun
import AfuBench.Proofs.WritePlan

namespace AfuBench

structure SweepStep where
  size : Nat
  count : Nat
  mode : Mode
  deriving DecidableEq

def SweepStep.ofRun (run : SweepPoint × Mode) : SweepStep :=
  ⟨run.1.size, run.1.count, run.2⟩

def sweepSteps (cells : List (Nat × Nat)) : List SweepStep :=
  cells.flatMap fun (size, count) =>
    [Mode.write, .read, .readWrite].map (SweepStep.mk size count)

theorem length_sweepSteps (cells : List (Nat × Nat)) :
    (sweepSteps cells).length = 3 * cells.length := by
  induction cells with
  | nil => rfl
  | cons cell cells ih =>
    rw [sweepSteps, List.flatMap_cons, ← sweepSteps, List.length_append, ih, List.length_cons]
    change 3 + 3 * cells.length = 3 * (cells.length + 1)
    omega

theorem map_ofRun_sweepRuns (points : List SweepPoint) :
    (sweepRuns points).map SweepStep.ofRun =
      sweepSteps (points.map fun point => (point.size, point.count)) := by
  induction points with
  | nil => rfl
  | cons point points ih =>
    rw [sweepRuns, List.flatMap_cons, ← sweepRuns, List.map_append, ih]
    rfl

namespace Bench

def configWrites (eng : Nat) (step : SweepStep) : Plan :=
  setupWrites eng ⟨step.mode.reads, step.count, step.size⟩ ⟨step.mode.writes, step.count, step.size⟩
    (engineSeed eng)

def startWrites (eng : Nat) (step : SweepStep) : Plan :=
  configWrites eng step ++ [(8 * Register.enableMask, Word.ofBit true eng)]

def runWrites (eng : Nat) (step : SweepStep) : Plan :=
  startWrites eng step ++ [(8 * Register.disableMask, Word.ofBit true eng)]

def sweepWrites (eng : Nat) (caps : Capabilities) : Plan :=
  (sweepSteps caps.sweepGrid).flatMap (runWrites eng)

def HangsIn (eng : Nat) (caps : Capabilities) (tried : Plan) : Prop :=
  ∃ before step after, sweepSteps caps.sweepGrid = before ++ step :: after ∧
    tried = before.flatMap (runWrites eng) ++ startWrites eng step

def hashOffset (eng : Nat) : Nat :=
  8 * Register.engineIndex eng Register.readHash

inductive Judged : List (SweepPoint × Mode) → List UInt64 → List Run → Prop
  | nil : Judged [] [] []
  | cons {point mode runs hash hashes verdicts} (trips : Nat) (rest : Judged runs hashes verdicts) :
      Judged ((point, mode) :: runs) (hash :: hashes) (verdict point mode hash trips :: verdicts)

variable {σ : Type} [Bus σ] {eng : Nat} {stops : BenchError → Plan → Prop}

theorem answers_read_of_ne {offset o : Nat} (h : o ≠ offset) (x : UInt64) (log : List Access) :
    answers offset (.read o (.ok x) :: log) = answers offset log := by
  rw [answers, List.filterMap_cons, Access.answer?, if_neg h]
  rfl

theorem answers_read (offset : Nat) (x : UInt64) : answers offset [.read offset (.ok x)] = [x] := by
  rw [answers, List.filterMap_cons, Access.answer?, if_pos rfl]
  rfl

theorem hashOffset_ne (heng : eng < Register.maxEngines) {index : Nat}
    (hindex : index < Register.engineBase) : 8 * index ≠ hashOffset eng :=
  (engineOffset_ne heng (by decide) hindex).symm

theorem keeps_waitDone (heng : eng < Register.maxEngines) (mask : UInt64) (limit : Nat) :
    Keeps (σ := σ) (waitDone mask limit) [] (fun _ log => answers (hashOffset eng) log = [])
      fun e _ => ∃ polls, e = .hang polls := by
  refine keeps_pollFrom ?_ ?_ (fun stops => ?_) 0 _
  · rfl
  · intro log rest hlog hrest
    rw [answers_append, hlog, hrest]
    rfl
  refine Keeps.after_read fun enabled => ?_
  refine Keeps.after_read fun active => ?_
  refine keeps_pure ?_
  rw [answers_read_of_ne (hashOffset_ne heng (by decide)),
    answers_read_of_ne (hashOffset_ne heng (by decide))]
  rfl

theorem keeps_describeEngine (heng : eng < Register.maxEngines) :
    Keeps (σ := σ) (describeEngine eng) [] (fun _ _ => True) stops := by
  simp only [describeEngine, readEngine_eq heng (show Register.status < _ by decide),
    readEngine_eq heng (show Register.readBursts < _ by decide),
    readEngine_eq heng (show Register.readLines < _ by decide),
    readEngine_eq heng (show Register.writeLines < _ by decide)]
  refine Keeps.after_read fun status => ?_
  refine Keeps.after_printLine ?_
  refine Keeps.after_printLine ?_
  refine Keeps.after_printLine ?_
  refine Keeps.after_printLine ?_
  refine Keeps.after_printLine ?_
  refine Keeps.after_read fun readBursts => ?_
  refine Keeps.after_printLine ?_
  refine Keeps.after_read fun readLines => ?_
  refine Keeps.after_printLine ?_
  refine Keeps.after_read fun writeLines => ?_
  exact (keeps_printLine _).mono (fun _ _ _ => trivial) fun _ _ h => h

theorem keeps_describeHang (heng : eng < Register.maxEngines) :
    Keeps (σ := σ) (describeHang eng) [] (fun _ _ => True) stops := by
  refine Keeps.after_printLine ?_
  refine Keeps.after_printLine ?_
  refine Keeps.after_read fun enabled => ?_
  refine Keeps.after_read fun active => ?_
  refine Keeps.after_printLine ?_
  exact keeps_describeEngine heng

theorem keeps_awaitRun (heng : eng < Register.maxEngines) (limit : Nat) :
    Keeps (σ := σ) (awaitRun eng limit) [] (fun _ log => answers (hashOffset eng) log = [])
      fun e tried => (∃ polls, e = .hang polls) ∧ tried = [] := by
  refine (keeps_waitDone heng _ limit).tryCatch (fun e => rfl) ?_
  rintro _ log ⟨polls, rfl⟩
  refine Keeps.bind (keeps_describeHang heng) fun _ _ _ => ?_
  exact keeps_throw ⟨⟨polls, rfl⟩, rfl⟩

theorem keeps_runPoint (heng : eng < Register.maxEngines) (limit : Nat) (point : SweepPoint)
    (mode : Mode) :
    Keeps (σ := σ) (runPoint eng limit point mode) (runWrites eng (.ofRun (point, mode)))
      (fun run log => ∃ hash trips, answers (hashOffset eng) log = [hash] ∧
        run = verdict point mode hash trips)
      fun e tried => (∃ polls, e = .hang polls) ∧ tried = startWrites eng (.ofRun (point, mode)) := by
  simp only [runPoint, readEngine_eq heng (show Register.readHash < _ by decide),
    writeEngine_eq heng (show Register.readTraffic < _ by decide),
    writeEngine_eq heng (show Register.writeTraffic < _ by decide),
    writeEngine_eq heng (show Register.seed < _ by decide)]
  refine Keeps.after_print ?_
  refine Keeps.after_write ?_
  refine Keeps.after_write ?_
  refine Keeps.after_write ?_
  refine Keeps.after_write ?_
  refine Keeps.bind ((keeps_awaitRun heng limit).mono (fun _ _ h => h) ?_) ?_
  · rintro e _ ⟨hhang, rfl⟩
    exact ⟨hhang, rfl⟩
  · intro trips log hlog
    refine Keeps.after_write ?_
    refine Keeps.after_read fun hash => ?_
    have hanswered : answers (hashOffset eng)
        (log ++ [.write (8 * Register.disableMask) (Word.ofBit true eng) (.ok ()),
          .read (hashOffset eng) (.ok hash)]) = [hash] := by
      rw [answers_append, hlog]
      exact answers_read _ hash
    split
    case isTrue hfail =>
      refine Keeps.after_printLine ?_
      refine Keeps.after_printLine ?_
      exact keeps_pure ⟨hash, trips, hanswered, (if_pos hfail).symm⟩
    case isFalse hpass =>
      refine Keeps.after_printLine ?_
      exact keeps_pure ⟨hash, trips, hanswered, (if_neg hpass).symm⟩

def Tallied (eng : Nat) (runs : List (SweepPoint × Mode)) (start stats : SweepStats)
    (log : List Access) : Prop :=
  ∃ verdicts, Judged runs (answers (hashOffset eng) log) verdicts ∧
    stats = verdicts.foldl SweepStats.record start

theorem Tallied.cons {run : SweepPoint × Mode} {runs : List (SweepPoint × Mode)}
    {start stats : SweepStats} {hash : UInt64} {trips : Nat} {log rest : List Access}
    (hlog : answers (hashOffset eng) log = [hash])
    (h : Tallied eng runs (start.record (verdict run.1 run.2 hash trips)) stats rest) :
    Tallied eng (run :: runs) start stats (log ++ rest) := by
  obtain ⟨verdicts, hjudged, rfl⟩ := h
  refine ⟨verdict run.1 run.2 hash trips :: verdicts, ?_, rfl⟩
  rw [answers_append, hlog]
  exact .cons trips hjudged

theorem keeps_runPoints (heng : eng < Register.maxEngines) (limit : Nat)
    (runs : List (SweepPoint × Mode)) :
    Keeps (σ := σ) (runPoints eng limit runs) ((runs.map .ofRun).flatMap (runWrites eng))
      (Tallied eng runs .empty)
      fun e tried => (∃ polls, e = .hang polls) ∧
        ∃ before step after, runs.map SweepStep.ofRun = before ++ step :: after ∧
          tried = before.flatMap (runWrites eng) ++ startWrites eng step := by
  have hround : ∀ (run : SweepPoint × Mode) (stats : SweepStats),
      Keeps (σ := σ) (do return stats.record (← runPoint eng limit run.1 run.2))
        (runWrites eng (.ofRun run))
        (fun new log => ∃ hash trips, answers (hashOffset eng) log = [hash] ∧
          new = stats.record (verdict run.1 run.2 hash trips))
        fun e tried => (∃ polls, e = .hang polls) ∧ tried = startWrites eng (.ofRun run) := by
    intro run stats
    rw [← List.append_nil (runWrites eng _)]
    refine Keeps.bind (keeps_runPoint heng limit run.1 run.2) ?_
    rintro _ log ⟨hash, trips, hlog, rfl⟩
    exact keeps_pure ⟨hash, trips, (List.append_nil log).symm ▸ hlog, rfl⟩
  rw [List.flatMap_map]
  refine (keeps_foldlM hround (fun _ => ⟨[], .nil, rfl⟩) ?_ _).mono (fun _ _ h => h) ?_
  · rintro run runs stats _ final log rest ⟨hash, trips, hlog, rfl⟩ hrest
    exact hrest.cons hlog
  · rintro e _ ⟨before, run, after, rest, rfl, rfl, hhang, rfl⟩
    refine ⟨hhang, before.map .ofRun, .ofRun run, after.map .ofRun, List.map_append, ?_⟩
    rw [List.flatMap_map]

end Bench

end AfuBench
