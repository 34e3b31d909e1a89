import AfuBench.Bus.RegisterFile
import AfuBench.Proofs.RecordedRun
import AfuBench.Proofs.SweepPlan

namespace AfuBench

def SweepStep.wrong (eng : Nat) (caps : Capabilities) (step : SweepStep) (hash : UInt64) : Bool :=
  step.mode.reads &&
    (expectedHash caps.width (engineSeed eng) (step.count * step.size)).toOption != some hash

structure SweepReport (eng : Nat) (caps : Capabilities) (hashes : List UInt64) (stats : SweepStats) :
    Prop where
  total : stats.total = 12 * caps.sweepSizes.length
  unchecked : stats.unchecked = 4 * caps.sweepSizes.length
  answered : hashes.length = 12 * caps.sweepSizes.length
  failed : stats.failed = ((sweepSteps caps.sweepGrid).zip hashes).countP fun (step, hash) =>
    step.wrong eng caps hash

theorem countP_reads_sweepRuns (points : List SweepPoint) :
    (sweepRuns points).countP (fun run => !run.2.reads) = points.length := by
  induction points with
  | nil => rfl
  | cons point points ih =>
    rw [sweepRuns, List.flatMap_cons, ← sweepRuns, List.countP_append, ih, List.length_cons]
    change 1 + points.length = points.length + 1
    omega

theorem length_sweepRuns (points : List SweepPoint) :
    (sweepRuns points).length = 3 * points.length := by
  rw [← List.length_map SweepStep.ofRun, map_ofRun_sweepRuns, length_sweepSteps, List.length_map]

namespace Bench

theorem checked_verdict (point : SweepPoint) (mode : Mode) (hash : UInt64) (trips : Nat) :
    (verdict point mode hash trips).checked = mode.reads := by
  rw [verdict]
  split
  case isTrue h => exact h.1.symm
  case isFalse => rfl

theorem passed_verdict (point : SweepPoint) (mode : Mode) (hash : UInt64) (trips : Nat) :
    (!(verdict point mode hash trips).passed) =
      (mode.reads && some point.expected != some hash) := by
  rw [verdict]
  split
  case isTrue h =>
    have hne : some point.expected ≠ some hash := fun heq => h.2 (Option.some.inj heq).symm
    rw [h.1, Bool.true_and, bne_iff_ne.2 hne]
    rfl
  case isFalse h =>
    cases hreads : mode.reads with
    | false => rfl
    | true =>
      have heq : hash = point.expected := Classical.not_not.1 fun hne => h ⟨hreads, hne⟩
      rw [heq, bne_self_eq_false]
      rfl

section

variable {runs : List (SweepPoint × Mode)} {hashes : List UInt64} {verdicts : List Run}

theorem Judged.length_hashes (h : Judged runs hashes verdicts) : hashes.length = runs.length := by
  induction h with
  | nil => rfl
  | cons trips rest ih => rw [List.length_cons, List.length_cons, ih]

theorem Judged.length_verdicts (h : Judged runs hashes verdicts) :
    verdicts.length = runs.length := by
  induction h with
  | nil => rfl
  | cons trips rest ih => rw [List.length_cons, List.length_cons, ih]

theorem Judged.countP_unchecked (h : Judged runs hashes verdicts) :
    verdicts.countP (!·.checked) = runs.countP fun run => !run.2.reads := by
  induction h with
  | nil => rfl
  | cons trips rest ih => rw [List.countP_cons, List.countP_cons, ih, checked_verdict]

theorem Judged.countP_failed {eng : Nat} {caps : Capabilities} (h : Judged runs hashes verdicts)
    (hexpected : ∀ run ∈ runs, expectedHash caps.width (engineSeed eng) (run.1.count * run.1.size) =
      .ok run.1.expected) :
    verdicts.countP (!·.passed) =
      ((runs.map SweepStep.ofRun).zip hashes).countP fun (step, hash) => step.wrong eng caps hash := by
  induction h with
  | nil => rfl
  | @cons point mode _ hash _ _ trips rest ih =>
    have hpoint := hexpected (point, mode) List.mem_cons_self
    rw [List.map_cons, List.zip_cons_cons, List.countP_cons, List.countP_cons,
      ih fun run hrun => hexpected run (List.mem_cons_of_mem _ hrun), passed_verdict]
    simp only [SweepStep.wrong, SweepStep.ofRun, hpoint, Except.toOption]

end

variable {σ : Type} {eng : Nat} {caps : Capabilities} {points : List SweepPoint}

theorem Tallied.report (hpoints : sweepPoints eng caps = .ok points) {stats : SweepStats}
    {log : List Access} (h : Tallied eng (sweepRuns points) .empty stats log) :
    SweepReport eng caps (answers (hashOffset eng) log) stats := by
  obtain ⟨hcells, hexpected⟩ := sweepPoints_eq_ok hpoints
  obtain ⟨verdicts, hjudged, rfl⟩ := h
  have hpoints_length : points.length = 4 * caps.sweepSizes.length := by
    rw [← caps.length_sweepGrid, ← hcells, List.length_map]
  have hruns : (sweepRuns points).length = 12 * caps.sweepSizes.length := by
    rw [length_sweepRuns, hpoints_length]
    omega
  have hrun : ∀ run ∈ sweepRuns points, expectedHash caps.width (engineSeed eng)
      (run.1.count * run.1.size) = .ok run.1.expected := by
    intro run hmem
    obtain ⟨point, hpoint, hmodes⟩ := List.mem_flatMap.1 hmem
    have hfst : ∀ r ∈ [(point, Mode.write), (point, .read), (point, .readWrite)], r.1 = point := by
      simp
    rw [hfst run hmodes]
    exact hexpected point hpoint
  constructor
  case total => exact (SweepStats.total_ofRuns verdicts).trans (hjudged.length_verdicts.trans hruns)
  case unchecked =>
    rw [← hpoints_length, ← countP_reads_sweepRuns, ← hjudged.countP_unchecked]
    exact SweepStats.unchecked_ofRuns verdicts
  case answered => exact hjudged.length_hashes.trans hruns
  case failed =>
    rw [← hcells, ← map_ofRun_sweepRuns, ← hjudged.countP_failed hrun]
    exact SweepStats.failed_ofRuns verdicts

inductive SweepStops (eng : Nat) (caps : Capabilities) : BenchError → Plan → Prop
  | hang {tried} (polls : Nat) (within : HangsIn eng caps tried) :
      SweepStops eng caps (.hang polls) tried
  | width (nonempty : caps.sweepGrid ≠ []) :
      SweepStops eng caps (.data (.invalidLength caps.width)) []

theorem HangsIn.getLast? {tried : Plan} (h : HangsIn eng caps tried) :
    tried.getLast? = some (8 * Register.enableMask, Word.ofBit true eng) := by
  obtain ⟨before, step, after, _, rfl⟩ := h
  rw [startWrites, ← List.append_assoc, List.getLast?_concat]

variable [Bus σ]

theorem keeps_sweep (heng : eng < Register.maxEngines) (caps : Capabilities) (limit : Nat) :
    Keeps (σ := σ) (sweep eng caps limit) (sweepWrites eng caps)
      (fun stats log => SweepReport eng caps (answers (hashOffset eng) log) stats)
      (SweepStops eng caps) := by
  refine Keeps.after_printLine ?_
  cases hpoints : sweepPoints eng caps with
  | error e =>
    obtain ⟨hgrid, rfl⟩ := sweepPoints_eq_error hpoints
    exact keeps_throw (.width hgrid)
  | ok points =>
    obtain ⟨hcells, -⟩ := sweepPoints_eq_ok hpoints
    have hplan : sweepWrites eng caps =
        ((sweepRuns points).map .ofRun).flatMap (runWrites eng) := by
      rw [map_ofRun_sweepRuns, hcells, sweepWrites]
    rw [hplan]
    refine (keeps_runPoints heng limit (sweepRuns points)).mono ?_ ?_
    · intro stats log htallied
      exact htallied.report hpoints
    · rintro _ tried ⟨⟨polls, rfl⟩, hwithin⟩
      rw [map_ofRun_sweepRuns, hcells] at hwithin
      exact .hang polls hwithin

end Bench

end AfuBench
