import AfuBench.Bus.RegisterFile
import AfuBench.Proofs.Discovery
import AfuBench.Proofs.EngineWrites
import AfuBench.Proofs.SweepOrder

namespace AfuBench

namespace Bench

variable {σ : Type} [Bus σ]

def configurationOffset : Nat :=
  8 * Register.configuration

theorem readGlobal_eq {reg : Nat} (hreg : reg < Register.globalCount) :
    readGlobal (σ := σ) reg = read (Register.globalIndex reg) :=
  if_neg (Nat.not_le_of_gt hreg)

theorem keeps_engineCount {stops : BenchError → Plan → Prop} :
    Keeps (σ := σ) engineCount [] (fun engines log => ∃ word,
      log = [.read configurationOffset (.ok word)] ∧ engines = Register.configEngines word) stops :=
  Keeps.after_read fun word => keeps_pure ⟨word, rfl, rfl⟩

theorem keeps_discover {eng : Nat} (heng : eng < Register.maxEngines)
    {stops : BenchError → Plan → Prop} :
    Keeps (σ := σ) (discover eng) []
      (fun c log => c.maxBurst ≤ 0x7fff ∧ answers configurationOffset log = []) stops := by
  rw [discover, readEngine_eq heng (by decide)]
  refine Keeps.after_read fun status => ?_
  refine Keeps.bind (keeps_printLines _) ?_
  rintro _ _ rfl
  refine keeps_pure ⟨Capabilities.maxBurst_ofWord_le status, ?_⟩
  exact answers_read_of_ne (engineOffset_ne heng (by decide) (by decide)) status []

theorem keeps_discoverFrom (count : Nat) {first : Nat} (hfirst : first ≤ Register.maxEngines) :
    Keeps (σ := σ) ((List.range' first count).mapM discover) []
      (fun caps log => caps.length = count ∧ first + count ≤ Register.maxEngines ∧
        (∀ c ∈ caps, c.maxBurst ≤ 0x7fff) ∧ answers configurationOffset log = [])
      fun e _ => e = .registerIndex Register.maxEngines Register.status := by
  induction count generalizing first with
  | zero => exact keeps_pure ⟨rfl, hfirst, nofun, rfl⟩
  | succ count ih =>
    rw [List.range'_succ, List.mapM_cons]
    rcases Nat.lt_or_eq_of_le hfirst with hroom | rfl
    · refine Keeps.bind (keeps_discover hroom) ?_
      rintro c log ⟨hburst, hlog⟩
      refine Keeps.bind (ih hroom) ?_
      rintro caps rest ⟨hlength, hfew, hbursts, hrest⟩
      refine keeps_pure ⟨congrArg (· + 1) hlength, by omega, ?_, ?_⟩
      · exact List.forall_mem_cons.2 ⟨hburst, hbursts⟩
      · rw [List.append_nil, answers_append, hlog, hrest]
        rfl
    · exact keeps_throw rfl

theorem keeps_discoverAll :
    Keeps (σ := σ) discoverAll []
      (fun caps log => caps.length ≤ Register.maxEngines ∧ (∀ c ∈ caps, c.maxBurst ≤ 0x7fff) ∧
        ∃ word, answers configurationOffset log = [word] ∧
          caps.length = Register.configEngines word)
      fun e _ => e = .registerIndex Register.maxEngines Register.status := by
  have hglobal : ∀ reg < Register.globalCount,
      8 * Register.globalIndex reg ≠ configurationOffset := by decide
  simp only [discoverAll, readGlobal_eq (show 1 < Register.globalCount by decide),
    readGlobal_eq (show 0 < Register.globalCount by decide)]
  refine Keeps.after_read fun idHigh => ?_
  refine Keeps.after_read fun idLow => ?_
  refine Keeps.after_printLine ?_
  refine Keeps.bind keeps_engineCount ?_
  rintro _ _ ⟨word, rfl, rfl⟩
  refine Keeps.after_printLine ?_
  rw [List.range_eq_range']
  refine Keeps.bind (keeps_discoverFrom _ (Nat.zero_le _)) ?_
  rintro caps log ⟨hlength, hfew, hbursts, hlog⟩
  refine Keeps.after_printLine (keeps_pure ⟨by omega, hbursts, word, ?_, hlength⟩)
  rw [answers_read_of_ne (hglobal 1 (by decide)), answers_read_of_ne (hglobal 0 (by decide)),
    answers_append, answers_append, hlog, answers_read]
  rfl

variable {limit : Nat} {s t : Session (Recorded σ)} {caps : List Capabilities}
  {before : List Access} {w : Nat × UInt64}

theorem few_of_discoverAll (h : discoverAll.run.run s = (.ok caps, t)) :
    caps.length ≤ Register.maxEngines ∧ ∀ c ∈ caps, c.maxBurst ≤ 0x7fff := by
  obtain ⟨log, _, hfollows⟩ := keeps_discoverAll s
  rw [h] at hfollows
  obtain ⟨hfew, hbursts, _⟩ := hfollows.post_of_ok
  exact ⟨hfew, hbursts⟩

theorem extends_finish (hfew : caps.length ≤ Register.maxEngines) (stats : SweepStats)
    (clean : Bool) : Extends (σ := σ) (do
      if clean then bandwidthAll caps limit
      return stats) := by
  cases clean with
  | false => exact extends_pure _
  | true => exact (plans_bandwidthAll hfew limit).extends.bind fun _ => extends_pure _

theorem extends_testEngines (hfew : caps.length ≤ Register.maxEngines) :
    Extends (σ := σ) (testEngines limit caps) :=
  (extends_sweepEngines (by omega)).bind fun result => extends_finish hfew result.1 result.2

theorem reaches_testEngines (hfew : caps.length ≤ Register.maxEngines)
    (h : Reaches (testEngines limit caps) s before w) :
    (∃ front c back results t, caps = front ++ c :: back ∧ Swept limit 0 front s results t ∧
      Clean results ∧ Reaches (sweep front.length c limit) t before w) ∨
    ∃ results t, Swept limit 0 caps s results t ∧ Clean results ∧ t.log <+: before ∧
      w ∈ bandwidthPlan caps := by
  have hfinish : ∀ (result : SweepStats × Bool) (t : Session (Recorded σ)),
      (sweepEngines limit 0 caps .empty).run.run s = (.ok result, t) → Extends (σ := σ) (do
        if result.2 then bandwidthAll caps limit
        return result.1) := fun result _ _ => extends_finish hfew result.1 result.2
  rcases h.bind hfinish with hsweep | ⟨⟨stats, clean⟩, t, hrun, hlater⟩
  · obtain ⟨front, c, back, results, t, hcaps, hswept, hclean, hreaches⟩ :=
      reaches_sweepEngines (by omega) hsweep
    rw [Nat.zero_add] at hreaches
    exact .inl ⟨front, c, back, results, t, hcaps, hswept, hclean, hreaches⟩
  · cases clean with
    | false => exact absurd hlater (not_reaches_pure _)
    | true =>
      obtain ⟨results, hswept, hclean⟩ := swept_of_sweepEngines hrun
      rcases hlater.bind fun _ _ _ => extends_pure _ with hbandwidth | ⟨_, _, _, hnone⟩
      · exact .inr ⟨results, t, hswept, hclean, hbandwidth.1,
          (plans_bandwidthAll hfew limit).reaches_mem hbandwidth⟩
      · exact absurd hnone (not_reaches_pure _)

theorem reaches_localMemoryTest (h : Reaches (localMemoryTest limit) s before w) :
    ∃ caps t, discoverAll.run.run s = (.ok caps, t) ∧ Reaches (testEngines limit caps) t before w := by
  rw [localMemoryTest_eq] at h
  have hextends : ∀ caps t, discoverAll.run.run s = (.ok caps, t) →
      Extends (σ := σ) (testEngines limit caps) := fun caps t hrun =>
    extends_testEngines (few_of_discoverAll hrun).1
  rcases h.bind hextends with hdiscovery | ⟨caps, t, hrun, hlater⟩
  · obtain ⟨log, _, hprefix⟩ := keeps_discoverAll.reaches hdiscovery
    exact absurd (List.prefix_nil.1 hprefix)
      (List.append_ne_nil_of_right_ne_nil _ (List.cons_ne_nil _ _))
  · exact ⟨caps, t, hrun, hlater⟩

theorem localMemoryTest_cases {d : Recorded σ} {answer : Except BenchError SweepStats}
    {session : Session (Recorded σ)} (hrun : (localMemoryTest limit).exec d = (answer, session)) :
    (∃ e, discoverAll.exec d = (.error e, session) ∧ answer = .error e) ∨
      ∃ caps u, discoverAll.exec d = (.ok caps, u) ∧
        (testEngines limit caps).run.run u = (answer, session) := by
  rw [localMemoryTest_eq, exec, run_bind] at hrun
  cases hdiscovery : discoverAll.run.run ⟨d, .empty⟩ with
  | mk outcome u =>
    rw [hdiscovery] at hrun
    cases outcome with
    | error e =>
      obtain ⟨rfl, rfl⟩ := Prod.mk.inj hrun
      exact .inl ⟨e, hdiscovery, rfl⟩
    | ok caps => exact .inr ⟨caps, u, hdiscovery, hrun⟩

structure TestOrder (limit : Nat) (d : σ) (answer : Except BenchError SweepStats)
    (session : Session (Recorded σ)) : Prop where
  /-- More engines than there is room for are an error before any write. -/
  window : ∀ word, (answers configurationOffset session.log).head? = some word →
    Register.maxEngines < Register.configEngines word →
      (∃ e, answer = .error e) ∧ attempts session.log = [] ∧
        (Granted session.log → answer = .error (.registerIndex 16 0))
  few : ∀ caps s, discoverAll.exec (Recorded.start d) = (.ok caps, s) →
    caps.length ≤ Register.maxEngines ∧
      ∃ word, (answers configurationOffset session.log).head? = some word ∧
        caps.length = Register.configEngines word
  /-- An engine is touched only after clean sweeps of all engines before it. -/
  touch : ∀ before offset value result after eng,
    session.log = before ++ .write offset value result :: after →
      Touches (eng + 1) (offset, value) →
        ∃ caps s results t, discoverAll.exec (Recorded.start d) = (.ok caps, s) ∧
          eng + 1 < caps.length ∧ Swept limit 0 (caps.take (eng + 1)) s results t ∧
          Clean results ∧ t.log <+: before
  /-- The first sweep with failed runs ends the test. -/
  failure : ∀ front c back s results t last u,
    discoverAll.exec (Recorded.start d) = (.ok (front ++ c :: back), s) →
      Swept limit 0 front s results t → Clean results →
        (sweep front.length c limit).run.run t = (.ok last, u) → 0 < last.failed →
          answer = .ok ((results ++ [last]).foldl SweepStats.merge .empty) ∧ session = u
  /-- An engine is enabled without a bound on its traffic only after clean sweeps of all engines. -/
  unlimited : ∀ before mask result after,
    session.log = before ++ .write (8 * Register.enableMask) mask result :: after →
      (∀ eng, Word.bit mask eng = true → Bounded eng before) ∨
        ∃ caps s results t, discoverAll.exec (Recorded.start d) = (.ok caps, s) ∧
          Swept limit 0 caps s results t ∧ Clean results ∧ t.log <+: before

section

variable {d : σ} {answer : Except BenchError SweepStats} {session : Session (Recorded σ)}

theorem testEngines_of_discoverAll
    (hrun : (localMemoryTest limit).exec (Recorded.start d) = (answer, session))
    (hdiscovery : discoverAll.exec (Recorded.start d) = (.ok caps, s)) :
    (testEngines limit caps).run.run s = (answer, session) := by
  rcases localMemoryTest_cases hrun with ⟨e, herror, _⟩ | ⟨caps', u, hok, hrest⟩
  · rw [hdiscovery] at herror
    cases herror
  · rw [hdiscovery] at hok
    cases hok
    exact hrest

theorem configEngines_of_discoverAll
    (hrun : (localMemoryTest limit).exec (Recorded.start d) = (answer, session))
    (hdiscovery : discoverAll.exec (Recorded.start d) = (.ok caps, s)) :
    caps.length ≤ Register.maxEngines ∧
      ∃ word, (answers configurationOffset session.log).head? = some word ∧
        caps.length = Register.configEngines word := by
  obtain ⟨hfew, _, word, hword, hcount⟩ := (keeps_discoverAll.exec hdiscovery).post_of_ok
  have hextends : s.log <+: ((testEngines limit caps).run.run s).2.log := extends_testEngines hfew s
  rw [testEngines_of_discoverAll hrun hdiscovery] at hextends
  obtain ⟨rest, hrest⟩ : s.log <+: session.log := hextends
  refine ⟨hfew, word, ?_, hcount⟩
  rw [← hrest, answers_append, hword]
  rfl

theorem window_of_localMemoryTest
    (hrun : (localMemoryTest limit).exec (Recorded.start d) = (answer, session)) {word : UInt64}
    (hword : (answers configurationOffset session.log).head? = some word)
    (hmany : Register.maxEngines < Register.configEngines word) :
    (∃ e, answer = .error e) ∧ attempts session.log = [] ∧
      (Granted session.log → answer = .error (.registerIndex 16 0)) := by
  rcases localMemoryTest_cases hrun with ⟨e, hdiscovery, rfl⟩ | ⟨caps, u, hdiscovery, _⟩
  · have hfollows := keeps_discoverAll.exec hdiscovery
    refine ⟨⟨e, rfl⟩, List.prefix_nil.1 hfollows.attempts_prefix, fun granted => ?_⟩
    rw [hfollows.stops_of_granted granted]
    rfl
  · obtain ⟨hfew, word', hword', hcount⟩ := configEngines_of_discoverAll hrun hdiscovery
    rw [hword, Option.some.injEq] at hword'
    rw [← hword'] at hcount
    exact absurd hmany (Nat.not_lt_of_le (hcount ▸ hfew))

theorem touch_of_localMemoryTest (h : Reaches (localMemoryTest limit) s before w) {eng : Nat}
    (htouch : Touches (eng + 1) w) :
    ∃ caps t results u, discoverAll.run.run s = (.ok caps, t) ∧ eng + 1 < caps.length ∧
      Swept limit 0 (caps.take (eng + 1)) t results u ∧ Clean results ∧ u.log <+: before := by
  obtain ⟨caps, t, hdiscovery, hrest⟩ := reaches_localMemoryTest h
  obtain ⟨hfew, _⟩ := few_of_discoverAll hdiscovery
  rcases reaches_testEngines hfew hrest with
    ⟨front, c, back, results, u, rfl, hswept, hclean, hreaches⟩ |
    ⟨results, u, hswept, hclean, hbefore, hmem⟩
  · rw [List.length_append, List.length_cons] at hfew
    have hfront : front.length < Register.maxEngines := by omega
    have heng : eng + 1 = front.length :=
      eq_of_touches_sweepWrites hfront ((keeps_sweep hfront c limit).reaches_mem hreaches) htouch
    refine ⟨front ++ c :: back, t, results, u, hdiscovery, ?_, ?_, hclean, hreaches.1⟩
    · rw [heng, List.length_append, List.length_cons]
      omega
    · rw [heng, List.take_left]
      exact hswept
  · have hlt := lt_of_touches_bandwidthPlan hfew hmem htouch
    obtain ⟨first, v, hfirst, hfirstClean, hlog⟩ := hswept.take hclean (by omega) (eng + 1)
    exact ⟨caps, t, first, v, hdiscovery, hlt, hfirst, hfirstClean, hlog.trans hbefore⟩

theorem bounded_of_localMemoryTest {mask : UInt64}
    (h : Reaches (localMemoryTest limit) s before (8 * Register.enableMask, mask)) :
    (∀ eng, Word.bit mask eng = true → Bounded eng before) ∨
      ∃ caps t results u, discoverAll.run.run s = (.ok caps, t) ∧ Swept limit 0 caps t results u ∧
        Clean results ∧ u.log <+: before := by
  obtain ⟨caps, t, hdiscovery, hrest⟩ := reaches_localMemoryTest h
  obtain ⟨hfew, hbursts⟩ := few_of_discoverAll hdiscovery
  rcases reaches_testEngines hfew hrest with
    ⟨front, c, back, results, u, rfl, hswept, hclean, hreaches⟩ |
    ⟨results, u, hswept, hclean, hbefore, hmem⟩
  · refine .inl fun eng hbit => ?_
    rw [List.length_append, List.length_cons] at hfew
    have hfront : front.length < Register.maxEngines := by omega
    have hburst := hbursts c (List.mem_append_right _ List.mem_cons_self)
    obtain ⟨log, rfl, hprefix⟩ := (keeps_sweep hfront c limit).reaches hreaches
    obtain ⟨earlier, step, hstep, htried, hmask⟩ := enable_of_prefix hfront hprefix rfl
    obtain rfl : eng = front.length := by
      rw [(Prod.mk.inj hmask).2, Word.bit_ofBit true (Nat.lt_of_lt_of_le hfront (by decide)),
        Bool.true_and] at hbit
      exact (of_decide_eq_true hbit).symm
    have hall : accepts (u.log ++ log) =
        accepts u.log ++ earlier ++ configWrites front.length step := by
      rw [accepts_append, htried, List.append_assoc]
    exact bounded_of_configWrites hfront hburst hstep hall
  · exact .inr ⟨caps, t, results, u, hdiscovery, hswept, hclean, hbefore⟩

theorem localMemoryTest_order (d : σ) (limit : Nat) :
    ∃ answer session, (localMemoryTest limit).exec (Recorded.start d) = (answer, session) ∧
      (localMemoryTest limit).exec d = (answer, session.unrecorded) ∧
      TestOrder limit d answer session := by
  obtain ⟨answer, session, hrun⟩ :
      ∃ answer session, (localMemoryTest limit).exec (Recorded.start d) = (answer, session) :=
    ⟨_, _, rfl⟩
  refine ⟨answer, session, hrun, ?_, ?_⟩
  · rw [(mirrors_localMemoryTest limit).exec d, hrun]
  constructor
  case window => exact fun word hword hmany => window_of_localMemoryTest hrun hword hmany
  case few => exact fun caps s hdiscovery => configEngines_of_discoverAll hrun hdiscovery
  case touch =>
    intro before offset value result after eng hlog htouch
    exact touch_of_localMemoryTest (reaches_of_exec hrun hlog) htouch
  case failure =>
    intro front c back s results t last u hdiscovery hswept hclean hlast hfailed
    rw [← Nat.zero_add front.length] at hlast
    have hrest := testEngines_of_discoverAll hrun hdiscovery
    rw [testEngines, run_bind, sweepEngines_of_failed hswept hclean hlast hfailed] at hrest
    obtain ⟨rfl, rfl⟩ := Prod.mk.inj hrest
    exact ⟨rfl, rfl⟩
  case unlimited =>
    intro before mask result after hlog
    exact bounded_of_localMemoryTest (reaches_of_exec hrun hlog)

theorem localMemoryTest_order_seventeen_engines :
    ∃ session, (localMemoryTest 10).exec
        (Recorded.start (RegisterFile.mk [] [(configurationOffset, [17])] [] [])) =
          (.error (.registerIndex 16 0), session) ∧ attempts session.log = [] := by
  obtain ⟨answer, session, hrun, -, horder⟩ :=
    localMemoryTest_order (RegisterFile.mk [] [(configurationOffset, [17])] [] []) 10
  have hlog : session.log = ((localMemoryTest 10).exec
      (Recorded.start (RegisterFile.mk [] [(configurationOffset, [17])] [] []))).2.log := by
    rw [hrun]
  have hword : (answers configurationOffset session.log).head? = some 17 := by
    rw [hlog]
    decide +kernel
  have hgranted : ∀ a ∈ session.log, a.error? = none := by
    rw [hlog]
    decide +kernel
  obtain ⟨_, hnone, hanswer⟩ := horder.window 17 hword (by decide)
  rw [hanswer hgranted] at hrun
  exact ⟨session, hrun, hnone⟩

end

end Bench

end AfuBench
