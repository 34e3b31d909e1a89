import AfuBench.Bench.ClockCell
import AfuBench.Proofs.AccessOutcome
import AfuBench.Proofs.Outcomes
import AfuBench.Proofs.SweepPlan

namespace AfuBench.Bench

def engineOffset (eng reg : Nat) : Nat :=
  8 * Register.engineIndex eng reg

theorem engineOffset_inj {eng other reg reg' : Nat} (heng : eng < Register.maxEngines)
    (hother : other < Register.maxEngines) (hreg : reg < Register.perEngine)
    (hreg' : reg' < Register.perEngine) (h : engineOffset eng reg = engineOffset other reg') :
    eng = other ∧ reg = reg' := by
  rw [engineOffset, engineOffset, Register.engineIndex_eq heng hreg,
    Register.engineIndex_eq hother hreg'] at h
  change reg < 16 at hreg
  change reg' < 16 at hreg'
  omega

theorem readLines_ne_writeLines {eng other : Nat} (heng : eng < Register.maxEngines)
    (hother : other < Register.maxEngines) :
    engineOffset eng Register.readLines ≠ engineOffset other Register.writeLines := fun h =>
  absurd (engineOffset_inj heng hother (by decide) (by decide) h).2 (by decide)

structure Counted (eng : Nat) (reads writes : UInt64) (log : List Access) : Prop where
  reads : answers (engineOffset eng Register.readLines) log = [reads]
  writes : answers (engineOffset eng Register.writeLines) log = [writes]

structure Uncounted (eng : Nat) (log : List Access) : Prop where
  reads : answers (engineOffset eng Register.readLines) log = []
  writes : answers (engineOffset eng Register.writeLines) log = []

def Moved (eng : Nat) (log : List Access) : Prop :=
  ∃ reads writes, ¬ (reads = 0 ∧ writes = 0) ∧ Counted eng reads writes log

def probe (eng : Nat) (reads writes : UInt64) : List Access :=
  [.read (engineOffset eng Register.readLines) (.ok reads)] ++
    [.read (engineOffset eng Register.writeLines) (.ok writes)]

inductive Probed (eng : Nat) : Except BenchError Nat → List Access → Prop
  | moved {reads writes} (some : ¬ (reads = 0 ∧ writes = 0)) :
      Probed eng (.ok eng) (probe eng reads writes)
  | silent : Probed eng (.error (.noTraffic eng)) (probe eng 0 0)
  | readsRefused {e} : Probed eng (.error (.access e))
      [.read (engineOffset eng Register.readLines) (.error e)]
  | writesRefused {reads e} : Probed eng (.error (.access e))
      ([.read (engineOffset eng Register.readLines) (.ok reads)] ++
        [.read (engineOffset eng Register.writeLines) (.error e)])

inductive Measured : List Nat → Except BenchError (List Nat) → List Access → Prop
  | nil : Measured [] (.ok []) []
  | cons {eng name engs answer log rest} (first : Probed eng (.ok name) log)
      (later : Measured engs answer rest) :
      Measured (eng :: engs) (answer.map (name :: ·)) (log ++ rest)
  | stopped {eng engs e log} (first : Probed eng (.error e) log) :
      Measured (eng :: engs) (.error e) log

section

variable {eng other : Nat} {reads writes : UInt64} {log before : List Access}

theorem uncounted_of_unprobed (h : Unprobed log) (heng : eng < Register.maxEngines) :
    Uncounted eng log :=
  ⟨h.answers_eq_nil heng (by decide), h.answers_eq_nil heng (by decide)⟩

theorem Uncounted.append (h : Uncounted eng before) (h' : Uncounted eng log) :
    Uncounted eng (before ++ log) := by
  constructor
  · rw [answers_append, h.reads, h'.reads, List.append_nil]
  · rw [answers_append, h.writes, h'.writes, List.append_nil]

theorem Uncounted.counted_append (h : Uncounted eng before) :
    Counted eng reads writes (before ++ log) ↔ Counted eng reads writes log := by
  have hreads : answers (engineOffset eng Register.readLines) (before ++ log) =
      answers (engineOffset eng Register.readLines) log := by
    rw [answers_append, h.reads, List.nil_append]
  have hwrites : answers (engineOffset eng Register.writeLines) (before ++ log) =
      answers (engineOffset eng Register.writeLines) log := by
    rw [answers_append, h.writes, List.nil_append]
  exact ⟨fun hc => ⟨hreads ▸ hc.reads, hwrites ▸ hc.writes⟩,
    fun hc => ⟨hreads.trans hc.reads, hwrites.trans hc.writes⟩⟩

theorem Uncounted.moved_append (h : Uncounted eng before) (h' : Moved eng log) :
    Moved eng (before ++ log) := by
  obtain ⟨reads, writes, hmoved, hcounted⟩ := h'
  exact ⟨reads, writes, hmoved, h.counted_append.2 hcounted⟩

theorem Uncounted.not_counted (h : Uncounted eng log) : ¬ Counted eng reads writes log := by
  rintro ⟨hreads, -⟩
  rw [h.reads] at hreads
  cases hreads

theorem Counted.append (h : Counted eng reads writes before) (h' : Uncounted eng log) :
    Counted eng reads writes (before ++ log) := by
  constructor
  · rw [answers_append, h.reads, h'.reads, List.append_nil]
  · rw [answers_append, h.writes, h'.writes, List.append_nil]

theorem Counted.unique {reads' writes' : UInt64} (h : Counted eng reads writes log)
    (h' : Counted eng reads' writes' log) : reads = reads' ∧ writes = writes' :=
  ⟨List.singleton_inj.1 (h.reads.symm.trans h'.reads),
    List.singleton_inj.1 (h.writes.symm.trans h'.writes)⟩

theorem counted_probe (heng : eng < Register.maxEngines) (reads writes : UInt64) :
    Counted eng reads writes (probe eng reads writes) := by
  have hne := readLines_ne_writeLines heng heng
  constructor
  · rw [probe, answers_append, answers_read, answers_read_of_ne hne.symm]
    rfl
  · rw [probe, answers_append, answers_read, answers_read_of_ne hne]
    rfl

theorem uncounted_read (heng : eng < Register.maxEngines) (hother : other < Register.maxEngines)
    (hne : other ≠ eng) {reg : Nat} (hreg : reg < Register.perEngine)
    (answer : Except AccessError UInt64) :
    Uncounted eng [.read (engineOffset other reg) answer] := by
  have hoffset : ∀ reg' < Register.perEngine, engineOffset other reg ≠ engineOffset eng reg' :=
    fun reg' hreg' h => hne (engineOffset_inj hother heng hreg hreg' h).1
  cases answer with
  | error e => exact ⟨rfl, rfl⟩
  | ok x =>
    exact ⟨answers_read_of_ne (hoffset _ (by decide)) x [],
      answers_read_of_ne (hoffset _ (by decide)) x []⟩

theorem uncounted_probe (heng : eng < Register.maxEngines) (hother : other < Register.maxEngines)
    (hne : other ≠ eng) (reads writes : UInt64) : Uncounted eng (probe other reads writes) :=
  (uncounted_read heng hother hne (by decide) _).append
    (uncounted_read heng hother hne (by decide) _)

namespace Probed

variable {answer : Except BenchError Nat}

theorem uncounted (h : Probed other answer log) (heng : eng < Register.maxEngines)
    (hother : other < Register.maxEngines) (hne : other ≠ eng) : Uncounted eng log := by
  cases h with
  | moved some => exact uncounted_probe heng hother hne _ _
  | silent => exact uncounted_probe heng hother hne 0 0
  | readsRefused => exact uncounted_read heng hother hne (by decide) _
  | writesRefused =>
    exact (uncounted_read heng hother hne (by decide) _).append
      (uncounted_read heng hother hne (by decide) _)

theorem moved_of_ok {name : Nat} (h : Probed eng (.ok name) log) (heng : eng < Register.maxEngines) :
    name = eng ∧ Moved eng log := by
  cases h with
  | moved some => exact ⟨rfl, _, _, some, counted_probe heng _ _⟩

theorem silent_of_error {e : BenchError} (h : Probed eng (.error e) log)
    (heng : eng < Register.maxEngines) :
    e = .noTraffic eng ∧ Counted eng 0 0 log ∨
      (∃ failure, e = .access failure) ∧ ¬ Counted eng 0 0 log := by
  cases h with
  | silent => exact .inl ⟨rfl, counted_probe heng 0 0⟩
  | readsRefused =>
    refine .inr ⟨⟨_, rfl⟩, fun hcounted => ?_⟩
    cases hcounted.reads
  | writesRefused =>
    refine .inr ⟨⟨_, rfl⟩, fun hcounted => ?_⟩
    have hwrites := hcounted.writes
    rw [answers_append, answers_read_of_ne (readLines_ne_writeLines heng heng)] at hwrites
    cases hwrites

end Probed

theorem Moved.append (h : Moved eng before) (h' : Uncounted eng log) : Moved eng (before ++ log) := by
  obtain ⟨reads, writes, some, hcounted⟩ := h
  exact ⟨reads, writes, some, hcounted.append h'⟩

theorem Moved.not_silent (h : Moved eng log) : ¬ Counted eng 0 0 log := by
  obtain ⟨reads, writes, some, hcounted⟩ := h
  exact fun hzero => some (hcounted.unique hzero)

end

namespace Measured

variable {engs : List Nat} {answer : Except BenchError (List Nat)} {log : List Access} {eng : Nat}

theorem uncounted (h : Measured engs answer log) (hfew : ∀ e ∈ engs, e < Register.maxEngines)
    (heng : eng < Register.maxEngines) (hmem : eng ∉ engs) : Uncounted eng log := by
  induction h with
  | nil => exact ⟨rfl, rfl⟩
  | cons first later ih =>
    obtain ⟨hne, hrest⟩ := not_or.1 (List.mem_cons.not.1 hmem)
    refine (first.uncounted heng (hfew _ List.mem_cons_self) (Ne.symm hne)).append ?_
    exact ih (fun e he => hfew e (List.mem_cons_of_mem _ he)) hrest
  | stopped first =>
    exact first.uncounted heng (hfew _ List.mem_cons_self) (Ne.symm (List.ne_of_not_mem_cons hmem))

theorem eq_of_ok {names : List Nat} (h : Measured engs answer log)
    (hfew : ∀ e ∈ engs, e < Register.maxEngines) (hok : answer = .ok names) : names = engs := by
  induction h generalizing names with
  | nil => exact (Except.ok.inj hok).symm
  | cons first later ih =>
    obtain ⟨rfl, -⟩ := first.moved_of_ok (hfew _ List.mem_cons_self)
    obtain ⟨names, rfl, rfl⟩ := map_eq_ok_iff.1 hok
    rw [ih (fun e he => hfew e (List.mem_cons_of_mem _ he)) rfl]
  | stopped first => cases hok

theorem noTraffic_iff (h : Measured engs answer log) (hfew : ∀ e ∈ engs, e < Register.maxEngines)
    (hdistinct : engs.Nodup) :
    answer = .error (.noTraffic eng) ↔ eng ∈ engs ∧ Counted eng 0 0 log := by
  induction h with
  | nil => exact ⟨nofun, fun ⟨hmem, _⟩ => absurd hmem List.not_mem_nil⟩
  | @cons head name engs answer log rest first later ih =>
    have hhead := hfew head List.mem_cons_self
    have hrest : ∀ e ∈ engs, e < Register.maxEngines := fun e he =>
      hfew e (List.mem_cons_of_mem _ he)
    obtain ⟨hfresh, hdistinct⟩ := List.nodup_cons.1 hdistinct
    have hother : ∀ e ∈ engs, (Counted e 0 0 (log ++ rest) ↔ Counted e 0 0 rest) := fun e he =>
      (first.uncounted (hrest e he) hhead fun heq => hfresh (heq ▸ he)).counted_append
    have hmoved : Moved head (log ++ rest) :=
      (first.moved_of_ok hhead).2.append (later.uncounted hrest hhead hfresh)
    have hmap : answer.map (name :: ·) = .error (.noTraffic eng) ↔
        answer = .error (.noTraffic eng) := by
      cases answer <;> simp [Except.map]
    rw [hmap, ih hrest hdistinct, List.mem_cons, or_and_right]
    refine ⟨fun ⟨hmem, hcounted⟩ => .inr ⟨hmem, (hother eng hmem).2 hcounted⟩, ?_⟩
    rintro (⟨rfl, hcounted⟩ | ⟨hmem, hcounted⟩)
    · exact absurd hcounted hmoved.not_silent
    · exact ⟨hmem, (hother eng hmem).1 hcounted⟩
  | @stopped head engs e log first =>
    have hhead := hfew head List.mem_cons_self
    have hself : eng ∈ head :: engs → Counted eng 0 0 log → head = eng := fun hmem hcounted =>
      Classical.byContradiction fun hne =>
        (first.uncounted (hfew eng hmem) hhead hne).not_counted hcounted
    rcases first.silent_of_error hhead with ⟨rfl, hcounted⟩ | ⟨⟨failure, rfl⟩, hcounted⟩
    · constructor
      · intro heq
        cases heq
        exact ⟨List.mem_cons_self, hcounted⟩
      · rintro ⟨hmem, hsilent⟩
        rw [hself hmem hsilent]
    · refine ⟨nofun, ?_⟩
      rintro ⟨hmem, hsilent⟩
      obtain rfl := hself hmem hsilent
      exact absurd hsilent hcounted

theorem moved (h : Measured engs answer log) (hfew : ∀ e ∈ engs, e < Register.maxEngines)
    (hascending : engs.Pairwise (· < ·)) (hmem : eng ∈ engs)
    (hbefore : ∀ e, answer = .error e → ∃ silent, e = .noTraffic silent ∧ eng < silent) :
    Moved eng log := by
  induction h with
  | nil => exact absurd hmem List.not_mem_nil
  | @cons head name engs answer log rest first later ih =>
    have hhead := hfew head List.mem_cons_self
    have hrest : ∀ e ∈ engs, e < Register.maxEngines := fun e he =>
      hfew e (List.mem_cons_of_mem _ he)
    obtain ⟨hleast, hascending⟩ := List.pairwise_cons.1 hascending
    rcases List.mem_cons.1 hmem with rfl | hmem
    · refine (first.moved_of_ok hhead).2.append (later.uncounted hrest hhead fun h => ?_)
      exact Nat.lt_irrefl _ (hleast _ h)
    · have huncounted := first.uncounted (hrest eng hmem) hhead (Nat.ne_of_lt (hleast eng hmem))
      refine huncounted.moved_append ?_
      refine ih hrest hascending hmem fun e he => hbefore e ?_
      rw [he]
      rfl
  | @stopped head engs e log first =>
    obtain ⟨silent, rfl, hlt⟩ := hbefore e rfl
    obtain rfl : silent = head := by
      rcases first.silent_of_error (hfew head List.mem_cons_self) with ⟨heq, _⟩ | ⟨⟨failure, heq⟩, _⟩
      · cases heq
        rfl
      · cases heq
    rcases List.mem_cons.1 hmem with rfl | hmem
    · exact absurd hlt (Nat.lt_irrefl _)
    · exact absurd hlt (Nat.lt_asymm ((List.pairwise_cons.1 hascending).1 eng hmem))

end Measured

inductive Reported (engs : List Nat) : Except BenchError (List Nat) → List Access → Prop
  | early {e log} (other : ∀ eng, e ≠ .noTraffic eng) (unprobed : Unprobed log) :
      Reported engs (.error e) log
  | late {answer before log} (unprobed : Unprobed before) (measured : Measured engs answer log) :
      Reported engs answer (before ++ log)

namespace Reported

variable {engs : List Nat} {answer : Except BenchError (List Nat)} {log before : List Access}
  {eng : Nat}

theorem prepend (h : Reported engs answer log) (hbefore : Unprobed before) :
    Reported engs answer (before ++ log) := by
  cases h with
  | early other unprobed => exact .early other (hbefore.append unprobed)
  | late unprobed measured =>
    rw [← List.append_assoc]
    exact .late (hbefore.append unprobed) measured

theorem eq_of_ok {names : List Nat} (h : Reported engs (.ok names) log)
    (hfew : ∀ e ∈ engs, e < Register.maxEngines) : names = engs := by
  cases h with
  | late unprobed measured => exact measured.eq_of_ok hfew rfl

theorem noTraffic_iff (h : Reported engs answer log) (hfew : ∀ e ∈ engs, e < Register.maxEngines)
    (hdistinct : engs.Nodup) :
    answer = .error (.noTraffic eng) ↔ eng ∈ engs ∧ Counted eng 0 0 log := by
  cases h with
  | early other unprobed =>
    refine ⟨fun heq => absurd (Except.error.inj heq) (other eng), fun ⟨hmem, hcounted⟩ => ?_⟩
    exact absurd hcounted (uncounted_of_unprobed unprobed (hfew eng hmem)).not_counted
  | late unprobed measured =>
    rw [measured.noTraffic_iff hfew hdistinct]
    refine and_congr_right fun hmem => ?_
    exact (uncounted_of_unprobed unprobed (hfew eng hmem)).counted_append.symm

theorem moved (h : Reported engs answer log) (hfew : ∀ e ∈ engs, e < Register.maxEngines)
    (hascending : engs.Pairwise (· < ·)) (hmem : eng ∈ engs)
    (hbefore : ∀ e, answer = .error e → ∃ silent, e = .noTraffic silent ∧ eng < silent) :
    Moved eng log := by
  cases h with
  | early other unprobed =>
    obtain ⟨silent, heq, -⟩ := hbefore _ rfl
    exact absurd heq (other silent)
  | late unprobed measured =>
    exact (uncounted_of_unprobed unprobed (hfew eng hmem)).moved_append
      (measured.moved hfew hascending hmem hbefore)

end Reported

variable {σ : Type} [Bus σ]

theorem yields_measure {eng : Nat} (heng : eng < Register.maxEngines) (mode : Mode) (mhz : Float)
    (cycles : UInt64) (caps : Capabilities) :
    Yields (σ := σ) (measure mode mhz cycles eng caps) fun answer log =>
      Probed eng (answer.map EngineBandwidth.eng) log := by
  simp only [measure, readEngine_eq heng (show Register.readLines < _ by decide),
    readEngine_eq heng (show Register.writeLines < _ by decide)]
  refine .after_read (fun reads => ?_) fun e => .readsRefused
  refine .after_read (fun writes => ?_) fun e => .writesRefused
  split
  case isTrue hsilent =>
    obtain ⟨rfl, rfl⟩ := hsilent
    exact .after_printLine (yields_throw .silent)
  case isFalse hmoved => exact .after_printLine (yields_pure (.moved hmoved))

theorem yields_measureAll {engines : List (Nat × Capabilities)} (mode : Mode) (mhz : Float)
    (cycles : UInt64) (hfew : ∀ engine ∈ engines, engine.1 < Register.maxEngines) :
    Yields (σ := σ) (measureAll engines mode mhz cycles) fun answer log =>
      Measured (engines.map Prod.fst) (answer.map (·.map EngineBandwidth.eng)) log := by
  induction engines with
  | nil => exact yields_pure .nil
  | cons engine engines ih =>
    rw [measureAll, List.mapM_cons]
    refine (yields_measure (hfew engine List.mem_cons_self) mode mhz cycles engine.2).bind ?_ ?_
    · intro result log hfirst
      refine (ih fun e he => hfew e (List.mem_cons_of_mem _ he)).bind ?_ ?_
      · intro results rest hlater
        refine yields_pure ?_
        rw [List.append_nil]
        exact .cons hfirst hlater
      · intro e rest hlater
        exact .cons hfirst hlater
    · intro e log hfirst
      exact .stopped hfirst

end AfuBench.Bench
