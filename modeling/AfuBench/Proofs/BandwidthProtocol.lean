import AfuBench.Bus.RegisterFile
import AfuBench.Proofs.BandwidthPlan
import AfuBench.Proofs.ClockCell
import AfuBench.Proofs.LineCounts
import AfuBench.Proofs.RecordedRun

namespace AfuBench.Bench

def engaged (mask : UInt64) (engines : Nat) : List Nat :=
  (List.range engines).filter (Word.bit mask)

theorem map_fst_selected (mask : UInt64) (caps : List Capabilities) :
    (selected mask caps).map Prod.fst = engaged mask caps.length := by
  have hindices : (caps.zipIdx.map Prod.snd).filter (Word.bit mask) = engaged mask caps.length := by
    rw [List.zipIdx_map_snd, ← List.range_eq_range', engaged]
  rw [← hindices, List.filter_map, selected, List.map_map]
  rfl

theorem pairwise_engaged (mask : UInt64) (engines : Nat) :
    (engaged mask engines).Pairwise (· < ·) :=
  List.Pairwise.filter _ List.pairwise_lt_range

theorem lt_of_mem_engaged {mask : UInt64} {engines eng : Nat} (h : eng ∈ engaged mask engines) :
    eng < engines :=
  List.mem_range.1 (List.mem_filter.1 h).1

def Waited (mask : UInt64) (log : List Access) : Prop :=
  ∃ before word between after, word ≠ 0 ∧
    log = before ++ [.read (8 * Register.runMask) (.ok word),
      .write (8 * Register.disableMask) mask (.ok ())] ++ between ++
      [.read (8 * Register.activeMask) (.ok 0)] ++ after

theorem Waited.append {mask : UInt64} {log : List Access} (h : Waited mask log)
    (rest : List Access) : Waited mask (log ++ rest) := by
  obtain ⟨before, word, between, after, hword, rfl⟩ := h
  refine ⟨before, word, between, after ++ rest, hword, ?_⟩
  simp only [List.append_assoc]

variable {σ : Type} [Bus σ] {caps : List Capabilities}

theorem preliminary_setUnlimited {eng : Nat} (heng : eng < Register.maxEngines) (size : Nat)
    (mode : Mode) : Preliminary (σ := σ) (setUnlimited size mode eng) := by
  simp only [setUnlimited, writeEngine_eq heng (show Register.readTraffic < _ by decide),
    writeEngine_eq heng (show Register.writeTraffic < _ by decide),
    writeEngine_eq heng (show Register.seed < _ by decide)]
  refine (preliminary_write _ _).bind fun _ => ?_
  refine (preliminary_write _ _).bind fun _ => ?_
  exact preliminary_write _ _

theorem preliminary_waitStarted (limit : Nat) : Preliminary (σ := σ) (waitStarted limit) :=
  preliminary_pollFrom ((preliminary_read (by decide)).bind fun _ => preliminary_pure _) 0 _

theorem preliminary_waitIdle (limit : Nat) : Preliminary (σ := σ) (waitIdle limit) :=
  preliminary_pollFrom ((preliminary_read (by decide)).bind fun _ => preliminary_pure _) 0 _

theorem preliminary_traffic (hcaps : caps.length ≤ Register.maxEngines) (mask : UInt64)
    (size : Nat) (mode : Mode) (limit : Nat) :
    Preliminary (σ := σ) (traffic mask caps size mode limit) := by
  refine (preliminary_forM fun engine h => ?_).bind fun _ => ?_
  · exact preliminary_setUnlimited (Nat.lt_of_lt_of_le (lt_of_mem_selected h) hcaps) size mode
  refine (preliminary_write _ _).bind fun _ => ?_
  refine (preliminary_waitStarted limit).bind fun _ => ?_
  refine (preliminary_write _ _).bind fun _ => ?_
  exact (preliminary_waitIdle limit).bind fun _ => preliminary_pure _

theorem preliminary_knownClock (mhz : Float) : Preliminary (σ := σ) (knownClock mhz) := by
  rw [knownClock]
  split
  · refine Preliminary.bind ?_ fun _ => (preliminary_printLine _).bind fun _ => preliminary_pure _
    refine (preliminary_read (by decide)).bind fun enabled => ?_
    split
    · exact preliminary_pure _
    · refine (preliminary_read (by decide)).bind fun config => ?_
      refine (preliminary_read (by decide)).bind fun cycles => ?_
      refine (preliminary_read (by decide)).bind fun reference => ?_
      split
      · exact preliminary_pure _
      · exact preliminary_pure _
  · exact preliminary_pure _

theorem yields_figures {engines : List (Nat × Capabilities)}
    (hfew : ∀ engine ∈ engines, engine.1 < Register.maxEngines) (mode : Mode) (mhz : Float) :
    Yields (σ := σ) (figures engines mode mhz) fun answer log =>
      Reported (engines.map Prod.fst) (answer.map (·.2.map EngineBandwidth.eng)) log := by
  refine Yields.bind (preliminary_knownClock mhz) ?_ ?_
  · rintro mhz log ⟨-, hlog⟩
    refine .after_read (fun cycles => ?_) fun e => ?_
    · refine (yields_measureAll mode mhz cycles hfew).bind ?_ ?_
      · intro results rest hmeasured
        refine yields_pure ?_
        rw [List.append_nil]
        exact (Reported.late (unprobed_read (by decide) _) hmeasured).prepend hlog
      · intro e rest hmeasured
        exact (Reported.late (unprobed_read (by decide) _) hmeasured).prepend hlog
    · exact (Reported.early (e := .access e) nofun (unprobed_read (by decide) _)).prepend hlog
  · rintro e log ⟨hother, hlog⟩
    exact .early (fun eng he => hother eng (he ▸ rfl)) hlog

theorem yields_waitStarted (limit : Nat) :
    Yields (σ := σ) (waitStarted limit) fun answer log => ∀ polls, answer = .ok polls →
      ∃ before word, word ≠ 0 ∧ log = before ++ [.read (8 * Register.runMask) (.ok word)] := by
  refine (@yields_pollFrom σ _ Register.runMask (fun word => decide (word ≠ 0)) 0
    (max limit 1)).mono ?_
  intro answer log h polls hpolls
  obtain ⟨before, word, hword, rfl⟩ := h polls hpolls
  exact ⟨before, word, of_decide_eq_true hword, rfl⟩

theorem yields_waitIdle (limit : Nat) :
    Yields (σ := σ) (waitIdle limit) fun answer log => ∀ polls, answer = .ok polls →
      ∃ before, log = before ++ [.read (8 * Register.activeMask) (.ok 0)] := by
  refine (@yields_pollFrom σ _ Register.activeMask (fun word => decide (word = 0)) 0
    (max limit 1)).mono ?_
  intro answer log h polls hpolls
  obtain ⟨before, word, hword, rfl⟩ := h polls hpolls
  obtain rfl := of_decide_eq_true hword
  exact ⟨before, rfl⟩

theorem yields_traffic (hcaps : caps.length ≤ Register.maxEngines) (mask : UInt64) (size : Nat)
    (mode : Mode) (limit : Nat) :
    Yields (σ := σ) (traffic mask caps size mode limit) fun answer log =>
      answer = .ok () → Waited mask log := by
  refine Yields.bind (preliminary_forM fun engine h => ?_) ?_ fun _ _ _ => nofun
  · exact preliminary_setUnlimited (Nat.lt_of_lt_of_le (lt_of_mem_selected h) hcaps) size mode
  intro _ setup _
  refine .after_write ?_ fun _ => nofun
  refine (yields_waitStarted limit).bind ?_ fun _ _ _ => nofun
  intro polls log hlog
  obtain ⟨before, word, hword, rfl⟩ := hlog polls rfl
  refine .after_write ?_ fun _ => nofun
  refine (yields_waitIdle limit).bind ?_ fun _ _ _ => nofun
  intro polls rest hrest
  obtain ⟨between, rfl⟩ := hrest polls rfl
  refine yields_pure fun _ => ?_
  refine ⟨setup ++ .write (8 * Register.enableMask) mask (.ok ()) :: before, word, between, [],
    hword, ?_⟩
  simp only [List.append_assoc, List.cons_append, List.nil_append, List.append_nil]

theorem yields_bandwidth (hcaps : caps.length ≤ Register.maxEngines) (mask : UInt64) (size : Nat)
    (mode : Mode) (limit : Nat) (mhz : Float) :
    Yields (σ := σ) (bandwidth mask caps size mode limit mhz) fun answer log =>
      Reported (engaged mask caps.length) (answer.map (·.2.map EngineBandwidth.eng)) log ∧
        ((∀ e, answer = .error e → ∃ eng, e = .noTraffic eng) →
          accepts log = bandwidthWrites mask caps size mode) := by
  have hfew : ∀ engine ∈ selected mask caps, engine.1 < Register.maxEngines := fun engine h =>
    Nat.lt_of_lt_of_le (lt_of_mem_selected h) hcaps
  have hfigures := (yields_figures (σ := σ) hfew mode mhz).and
    (onlyReads_figures hfew mode mhz).yields
  have htraffic := (preliminary_traffic (σ := σ) hcaps mask size mode limit).and
    (plans_traffic hcaps mask size mode limit).yields
  rw [bandwidth_eq, ← map_fst_selected]
  refine htraffic.bind ?_ ?_
  · rintro _ log ⟨⟨-, hlog⟩, hplan⟩
    refine hfigures.mono ?_
    rintro answer rest ⟨hreported, hreads⟩
    refine ⟨hreported.prepend hlog, fun _ => ?_⟩
    cases hplan with
    | done granted all _ =>
      rw [accepts_append, accepts_eq_attempts granted, all, List.prefix_nil.1 hreads.accepts_prefix,
        List.append_nil]
  · rintro e log ⟨⟨hother, hlog⟩, -⟩
    refine ⟨.early (fun eng he => hother eng (he ▸ rfl)) hlog, fun hsilent => ?_⟩
    obtain ⟨eng, rfl⟩ := hsilent e rfl
    exact absurd rfl (hother eng)

def trafficWrites (mask : UInt64) (engines size : Nat) (mode : Mode) : Plan :=
  (engaged mask engines).flatMap (unlimitedWrites size mode) ++
    [(8 * Register.enableMask, mask), (8 * Register.disableMask, mask)]

theorem bandwidthWrites_eq (mask : UInt64) (caps : List Capabilities) (size : Nat) (mode : Mode) :
    bandwidthWrites mask caps size mode = trafficWrites mask caps.length size mode := by
  rw [trafficWrites, ← map_fst_selected, List.flatMap_map]
  rfl

structure BandwidthProtocol (mask : UInt64) (engines size : Nat) (mode : Mode) (mhz cell : Float)
    (answer : Except BenchError (List EngineBandwidth)) (log : List Access) : Prop where
  writes : accepts log <+: trafficWrites mask engines size mode
  ok : ∀ results, answer = .ok results → accepts log = trafficWrites mask engines size mode ∧
    results.map EngineBandwidth.eng = engaged mask engines ∧
      ∀ eng ∈ engaged mask engines, Moved eng log
  noTraffic_iff : ∀ eng, answer = .error (.noTraffic eng) ↔
    eng ∈ engaged mask engines ∧ Counted eng 0 0 log
  noTraffic : ∀ eng, answer = .error (.noTraffic eng) →
    accepts log = trafficWrites mask engines size mode ∧
      ∀ e ∈ engaged mask engines, e < eng → Moved e log
  clock : cell = mhz ∨ (mhz == 0.0) = true ∧ Waited mask log

theorem waited_of_traffic (hcaps : caps.length ≤ Register.maxEngines) {mask : UInt64} {size : Nat}
    {mode : Mode} {limit : Nat} {s : Session (Recorded σ)}
    (h : ((traffic mask caps size mode limit).run.run s).1 = .ok ()) (mhz : Float) :
    ∃ log, ((bandwidth mask caps size mode limit mhz).run.run s).2.log = s.log ++ log ∧
      Waited mask log := by
  obtain ⟨log, hlog, hwaited⟩ := yields_traffic hcaps mask size mode limit s
  rw [bandwidth_eq, run_bind]
  generalize (traffic mask caps size mode limit).run.run s = result at h hlog hwaited ⊢
  obtain ⟨_, t⟩ := result
  obtain rfl := h
  obtain ⟨rest, hrest, -⟩ := yields_figures
    (fun engine h => Nat.lt_of_lt_of_le (lt_of_mem_selected h) hcaps) mode mhz t
  refine ⟨log ++ rest, ?_, (hwaited rfl).append rest⟩
  rw [← List.append_assoc, ← hlog]
  exact hrest

theorem bandwidth_protocol (d : σ) (hcaps : caps.length ≤ Register.maxEngines) (mask : UInt64)
    (size : Nat) (mode : Mode) (limit : Nat) (mhz : Float) :
    ∃ answer session cell,
      (Clocked.bandwidth mask caps size mode limit).run.run (⟨Recorded.start d, .empty⟩, mhz) =
        (answer, session, cell) ∧
      (bandwidth mask caps size mode limit mhz).exec d =
        (answer.map (cell, ·), session.unrecorded) ∧
      BandwidthProtocol mask caps.length size mode mhz cell answer session.log := by
  obtain ⟨answer, session, cell, hrun, hgiven, hcell⟩ :=
    Clocked.run_bandwidth mask caps size mode limit ⟨Recorded.start d, .empty⟩ mhz
  have hexec : (bandwidth mask caps size mode limit mhz).exec (Recorded.start d) =
      (answer.map (cell, ·), session) := hgiven
  refine ⟨answer, session, cell, hrun, ?_, ?_⟩
  · rw [(mirrors_bandwidth mask caps size mode limit mhz).exec d, hexec]
  obtain ⟨hreported, hall⟩ := (yields_bandwidth hcaps mask size mode limit mhz).exec hexec
  have hnames : (answer.map (cell, ·)).map (·.2.map EngineBandwidth.eng) =
      answer.map (·.map EngineBandwidth.eng) := by
    cases answer <;> rfl
  rw [hnames] at hreported
  rw [bandwidthWrites_eq] at hall
  have hfew : ∀ eng ∈ engaged mask caps.length, eng < Register.maxEngines := fun eng h =>
    Nat.lt_of_lt_of_le (lt_of_mem_engaged h) hcaps
  have hascending := pairwise_engaged mask caps.length
  constructor
  case writes =>
    rw [← bandwidthWrites_eq]
    have hfollows := (plans_bandwidth hcaps mask size mode limit mhz).exec hexec
    exact hfollows.accepts_prefix
  case ok =>
    rintro results rfl
    exact ⟨hall nofun, hreported.eq_of_ok hfew, fun eng h => hreported.moved hfew hascending h nofun⟩
  case noTraffic_iff =>
    intro eng
    rw [← hreported.noTraffic_iff hfew (hascending.imp Nat.ne_of_lt)]
    cases answer <;> simp [Except.map]
  case noTraffic =>
    rintro eng rfl
    refine ⟨hall fun e he => ⟨eng, (Except.error.inj he).symm⟩, fun e hmem hlt => ?_⟩
    refine hreported.moved hfew hascending hmem fun failure hfailure => ?_
    exact ⟨eng, (Except.error.inj hfailure).symm, hlt⟩
  case clock =>
    refine hcell.imp_right fun ⟨hzero, htraffic⟩ => ⟨hzero, ?_⟩
    obtain ⟨log, hlog, hwaited⟩ := waited_of_traffic hcaps htraffic mhz
    rw [hgiven] at hlog
    exact hlog ▸ hwaited

/-- The second of two engines moves nothing, and the clock is measured meanwhile. -/
def silentSecond : RegisterFile where
  cells := [(8 * Register.cycles, 10), (8 * Register.referenceCycles, 10)]
  answers := [(8 * Register.runMask, [3, 0]), (8 * Register.configuration, [0xfa02]),
    (engineOffset 0 Register.readLines, [5]), (engineOffset 1 Register.readLines, [0])]
  refusedReads := []
  refusedWrites := []

theorem bandwidth_protocol_silentSecond :
    (List.replicate 2 (⟨64, 2, false, true, true⟩ : Capabilities)).length ≤ Register.maxEngines ∧
      ∃ session cell,
        (Clocked.bandwidth 3 (List.replicate 2 ⟨64, 2, false, true, true⟩) 2 .read 1).run.run
          (⟨Recorded.start silentSecond, .empty⟩, 0.0) = (.error (.noTraffic 1), session, cell) ∧
        (cell == 250.0) = true ∧ Waited 3 session.log ∧ Moved 0 session.log := by
  have hsilent : (match (Clocked.bandwidth 3 (List.replicate 2 ⟨64, 2, false, true, true⟩) 2 .read
      1).run.run (⟨Recorded.start silentSecond, .empty⟩, 0.0) with
    | (.ok _, _) => false
    | (.error e, _, cell) => decide (e = .noTraffic 1) && cell == 250.0) = true := by decide +kernel
  obtain ⟨answer, session, cell, hrun, -, hprotocol⟩ := bandwidth_protocol silentSecond
    (show (List.replicate 2 (⟨64, 2, false, true, true⟩ : Capabilities)).length ≤
      Register.maxEngines by decide) 3 2 .read 1 0.0
  rw [hrun] at hsilent
  cases answer with
  | ok results => cases hsilent
  | error e =>
    obtain ⟨he, hcell⟩ := Bool.and_eq_true_iff.1 hsilent
    obtain rfl : e = .noTraffic 1 := of_decide_eq_true he
    have hmoved := (hprotocol.noTraffic 1 rfl).2 0 (by decide) (by decide)
    have hwaited : Waited 3 session.log := by
      rcases hprotocol.clock with hsame | ⟨-, hwaited⟩
      · have hne : ((0.0 : Float) == 250.0) = false := by decide +kernel
        rw [hsame, hne] at hcell
        cases hcell
      · exact hwaited
    exact ⟨by decide, session, cell, hrun, hcell, hwaited, hmoved⟩

end AfuBench.Bench
