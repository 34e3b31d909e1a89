import AfuBench.Proofs.HealthyDevice
import Mathlib.Data.List.Basic

namespace AfuBench

def Register.Target.UpTo (k : Nat) (value : UInt64) : Target → Prop
  | .engine eng _ => eng ≤ k
  | .enable => ∀ j, k < j → Word.bit value j = false
  | .disable => ∀ j, k < j → Word.bit value j = false
  | .shared _ => False
  | .readOnly => False

def Bus.Request.UpTo (engines k : Nat) : Request → Prop
  | .read _ => True
  | .write offset value => (Register.target engines (offset / 8)).UpTo k value

def Bus.UpTo (engines k : Nat) (requests : List Request) : Prop :=
  ∀ request ∈ requests, request.UpTo engines k

namespace Bus.UpTo

variable {engines k : Nat} {before after : List Bus.Request}

theorem append (hbefore : Bus.UpTo engines k before) (hafter : Bus.UpTo engines k after) :
    Bus.UpTo engines k (before ++ after) := by
  intro request hmem
  rcases List.mem_append.1 hmem with hb | ha
  · exact hbefore request hb
  · exact hafter request ha

theorem flatMap {α : Type} {xs : List α} {f : α → List Bus.Request}
    (h : ∀ x ∈ xs, Bus.UpTo engines k (f x)) : Bus.UpTo engines k (xs.flatMap f) := by
  intro request hmem
  obtain ⟨x, hx, hrequest⟩ := List.mem_flatMap.1 hmem
  exact h x hx request hrequest

theorem repeated {requests : List Bus.Request} (h : Bus.UpTo engines k requests) (n : Nat) :
    Bus.UpTo engines k (Bus.repeated n requests) := by
  induction n with
  | zero => exact fun _ hmem => absurd hmem List.not_mem_nil
  | succ n ih =>
    rw [Bus.repeated_succ]
    exact h.append ih

theorem reads (offsets : List Nat) : Bus.UpTo engines k (offsets.map .read) := by
  intro request hmem
  obtain ⟨offset, _, rfl⟩ := List.mem_map.1 hmem
  trivial

theorem seen {requests : List Bus.Request} (h : Bus.UpTo engines k requests) {j : Nat}
    (hj : k < j) : ∃ n, Slot.seen engines j requests = List.replicate n .tick := by
  induction requests with
  | nil => exact ⟨0, rfl⟩
  | cons request requests ih =>
    obtain ⟨n, hn⟩ := ih fun r hr => h r (List.mem_cons_of_mem _ hr)
    have hfirst := h request List.mem_cons_self
    rw [Slot.seen_cons, hn]
    cases request with
    | read offset =>
      rw [Bus.Request.operation, Slot.event?]
      split
      · exact ⟨n + 1, rfl⟩
      · exact ⟨n, rfl⟩
    | write offset value =>
      refine ⟨n, ?_⟩
      change (Register.target engines (offset / 8)).UpTo k value at hfirst
      rw [Bus.Request.operation, Slot.event?]
      split
      · rfl
      · cases htarget : Register.target engines (offset / 8) with
        | enable =>
          rw [htarget] at hfirst
          simp only [hfirst j hj, Bool.false_eq_true, if_false]
          rfl
        | disable =>
          rw [htarget] at hfirst
          simp only [hfirst j hj, Bool.false_eq_true, if_false]
          rfl
        | engine eng reg =>
          rw [htarget] at hfirst
          have hne : eng ≠ j := Nat.ne_of_lt (Nat.lt_of_le_of_lt hfirst hj)
          simp only [hne, if_false]
          rfl
        | shared reg => rfl
        | readOnly => rfl

end Bus.UpTo

namespace Bench

section

variable {engines k eng : Nat}

theorem upTo_mask (heng : eng ≤ k) (hlt : eng < engines) (hlen : engines ≤ Register.maxEngines) :
    ∀ j, k < j → Word.bit (Word.ofBit true eng) j = false := by
  intro j hj
  have hne : eng ≠ j := Nat.ne_of_lt (Nat.lt_of_le_of_lt heng hj)
  have h64 : eng < 64 := Nat.lt_of_lt_of_le hlt (Nat.le_trans hlen (by decide))
  rw [Word.bit_ofBit true h64, decide_eq_false hne, Bool.and_false]

theorem upTo_startRequests (heng : eng ≤ k) (hlt : eng < engines)
    (hlen : engines ≤ Register.maxEngines) (point : SweepPoint) (mode : Mode) :
    Bus.UpTo engines k (startRequests eng point mode) := by
  have hwrite : ∀ reg < Register.perEngine, ∀ value : UInt64,
      Bus.Request.UpTo engines k (.write (8 * Register.engineIndex eng reg) value) := by
    intro reg hreg value
    rw [Bus.Request.UpTo, Nat.mul_div_cancel_left _ (by decide),
      Register.target_engineIndex hlt hlen hreg]
    exact heng
  intro request hmem
  rcases List.mem_cons.1 hmem with rfl | hmem
  · exact hwrite _ (by decide) _
  rcases List.mem_cons.1 hmem with rfl | hmem
  · exact hwrite _ (by decide) _
  rcases List.mem_cons.1 hmem with rfl | hmem
  · exact hwrite _ (by decide) _
  rw [List.mem_singleton.1 hmem]
  exact upTo_mask heng hlt hlen

theorem upTo_endRequests (heng : eng ≤ k) (hlt : eng < engines)
    (hlen : engines ≤ Register.maxEngines) : Bus.UpTo engines k (endRequests eng) := by
  intro request hmem
  rcases List.mem_cons.1 hmem with rfl | hmem
  · exact upTo_mask heng hlt hlen
  rw [List.mem_singleton.1 hmem]
  trivial

theorem upTo_donePolls (engines k n : Nat) : Bus.UpTo engines k (Bus.repeated n donePoll) :=
  Bus.UpTo.repeated (Bus.UpTo.reads [8 * Register.runMask, 8 * Register.activeMask]) n

theorem upTo_discoveryRequests (engines k : Nat) :
    Bus.UpTo engines k (discoveryRequests engines) := by
  have hreads : Bus.UpTo engines k (((discoveryWords engines).map fun i => 8 * i).map .read) :=
    Bus.UpTo.reads _
  rw [List.map_map] at hreads
  exact hreads

theorem upTo_sweepRequests (config : AfuConfig) (heng : eng ≤ k) (hlt : eng < engines)
    (hlen : engines ≤ Register.maxEngines) : Bus.UpTo engines k (sweepRequests config eng) := by
  refine Bus.UpTo.flatMap ?_
  intro run _
  refine (upTo_startRequests heng hlt hlen run.1 run.2).append ?_
  exact (upTo_donePolls engines k _).append (upTo_endRequests heng hlt hlen)

theorem upTo_sweepsRequests (config : AfuConfig) {count : Nat} (hcount : count ≤ k + 1)
    (hlt : count ≤ engines) (hlen : engines ≤ Register.maxEngines) :
    Bus.UpTo engines k (sweepsRequests config count) := by
  refine Bus.UpTo.flatMap ?_
  intro eng heng
  have hrange := List.mem_range.1 heng
  exact upTo_sweepRequests config (by omega) (by omega) hlen

theorem upTo_hungRequests (heng : eng ≤ k) (hlt : eng < engines)
    (hlen : engines ≤ Register.maxEngines) (limit : Nat) (point : SweepPoint) (mode : Mode) :
    Bus.UpTo engines k (hungRequests eng limit point mode) := by
  refine (upTo_startRequests heng hlt hlen point mode).append ?_
  refine (upTo_donePolls engines k limit).append ?_
  exact Bus.UpTo.reads [8 * Register.runMask, 8 * Register.activeMask,
    8 * Register.engineIndex eng Register.status, 8 * Register.engineIndex eng Register.readBursts,
    8 * Register.engineIndex eng Register.readLines, 8 * Register.engineIndex eng Register.writeLines]

end

/-- No write reached an engine above `k`: such an engine is as it was, but that it may have drained
further. -/
structure LeftAlone (config : AfuConfig) (k : Nat) (a : Afu) (r : Recorded Afu) : Prop where
  writes : ∀ w ∈ r.writes, (Register.target (min config.engines 16) (w.1 / 8)).UpTo k w.2
  engines : ∀ (j : Nat) (e : Engine), k < j → a.engines[j]? = some e →
    ∃ n, r.device.engines[j]? = some { e with busy := e.busy - n }

theorem leftAlone_serve {config : AfuConfig} {faults : Nat → Fault} {a : Afu}
    (h : Afu.Idle config.clamp faults a) {k : Nat} {requests : List Bus.Request}
    (haccepts : Bus.Accepts a requests) (hupTo : Bus.UpTo config.clamp.engines k requests) :
    LeftAlone config k a (Bus.serve (Recorded.start a) requests) where
  writes w hw := by
    rw [Recorded.writes_serve haccepts] at hw
    obtain ⟨request, hrequest, hsome⟩ := List.mem_filterMap.1 hw
    have hup := hupTo request hrequest
    cases request with
    | read offset => cases hsome
    | write offset value =>
      cases hsome
      exact hup
  engines j e hj he := by
    have hlt : j < config.clamp.engines := by
      rw [← h.length_eq]
      exact (List.getElem?_eq_some_iff.1 he).1
    obtain ⟨s, hs, hidle⟩ := h.slot j hlt
    obtain ⟨n, hseen⟩ := hupTo.seen hj
    have hafter := h.slot?_of_seen hlt hs hseen
    rw [Slot.run_ticks _ hidle.streaming] at hafter
    cases (Afu.slot?_eq_some_iff.1 hs).1.symm.trans he
    refine ⟨n, ?_⟩
    have hdevice : (Bus.serve (Recorded.start a) requests).device = Bus.serve a requests :=
      Afu.Host.afu_serve (Recorded.start a) requests
    rw [hdevice]
    exact (Afu.slot?_eq_some_iff.1 hafter).1

theorem written_discovery (engines : Nat) (requests : List Bus.Request) :
    Recorded.written (discoveryRequests engines ++ requests) = Recorded.written requests := by
  have hreads : Recorded.written (discoveryRequests engines) = [] := by
    apply List.filterMap_eq_nil_iff.2
    intro request hmem
    obtain ⟨i, _, rfl⟩ := List.mem_map.1 hmem
    rfl
  rw [Recorded.written, List.filterMap_append, ← Recorded.written, hreads, List.nil_append]

theorem exec_recorded {α : Type} {p : ∀ {σ : Type} [Bus σ], Bench σ α} {a : Afu}
    {r : Except BenchError α} {requests : List Bus.Request} {out : List Console.Output}
    (h : ∀ {σ : Type} [Bus σ] [Afu.Host σ], Performs (σ := σ) p a r requests out) :
    Bench.exec p (Recorded.start a) =
        (r, ⟨Bus.serve (Recorded.start a) requests, Console.empty.putAll out⟩) ∧
      Bench.exec p a =
        (r, ⟨(Bus.serve (Recorded.start a) requests).device, Console.empty.putAll out⟩) := by
  have hdevice : (Bus.serve (Recorded.start a) requests).device = Bus.serve a requests :=
    Afu.Host.afu_serve (Recorded.start a) requests
  refine ⟨h.exec rfl, ?_⟩
  rw [hdevice]
  exact h.exec rfl

theorem flatMap_last {α : Type} (f : Bool → Nat → List α) (k : Nat) :
    ((List.range (k + 1)).flatMap fun eng => f (eng == k) eng) =
      (List.range k).flatMap (f false) ++ f true k := by
  have hbefore : ((List.range k).flatMap fun eng => f (eng == k) eng) =
      (List.range k).flatMap (f false) := by
    apply List.flatMap_congr
    intro eng heng
    rw [beq_false_of_ne (Nat.ne_of_lt (List.mem_range.1 heng))]
  rw [List.range_succ, List.flatMap_append, List.flatMap_singleton, hbefore, beq_self_eq_true]

theorem ofRuns_corrupt (config : AfuConfig) (k : Nat) :
    (SweepStats.ofRuns (allVerdicts config (· == k) (k + 1))).total =
        12 * config.reported.sweepSizes.length * (k + 1) ∧
      (SweepStats.ofRuns (allVerdicts config (· == k) (k + 1))).failed =
        8 * config.reported.sweepSizes.length ∧
      (SweepStats.ofRuns (allVerdicts config (· == k) (k + 1))).unchecked =
        4 * config.reported.sweepSizes.length * (k + 1) := by
  have hsplit : allVerdicts config (· == k) (k + 1) =
      allVerdicts config (fun _ => false) k ++ sweepVerdicts config true k :=
    flatMap_last (sweepVerdicts config) k
  refine ⟨?_, ?_, ?_⟩
  · rw [SweepStats.total_ofRuns, length_allVerdicts, Nat.mul_right_comm]
  · have hhealthy := countP_allVerdicts (!·.passed) config (fun _ => false) 0 k
      fun _ _ => rfl
    have hfaulty := failed_sweepVerdicts config true k
    rw [SweepStats.failed_ofRuns, if_pos rfl] at hfaulty
    rw [SweepStats.failed_ofRuns, hsplit, List.countP_append, hhealthy, hfaulty, Nat.mul_zero,
      Nat.zero_mul, Nat.zero_mul, Nat.zero_add]
  · have hchecked := countP_allVerdicts (!·.checked) config (· == k) 1 (k + 1)
      fun _ _ => by cases _ == k <;> rfl
    rw [SweepStats.unchecked_ofRuns, hchecked, Nat.mul_one, Nat.mul_right_comm]

section

variable {σ : Type} [Bus σ] [Afu.Host σ] {config : AfuConfig} {faults : Nat → Fault} {a : Afu}
  {k limit : Nat}

theorem performs_testEngines_corrupt (h : Afu.Idle config faults a) (hk : k < config.engines)
    (hhealthy : ∀ j < k, faults j = ⟨false, false⟩) (hfault : faults k = ⟨false, true⟩)
    (hsizes : 0 < config.reported.sweepSizes.length) (hlimit : config.busyPolls < limit) :
    Performs (σ := σ) (testEngines limit (List.replicate config.engines config.reported)) a
      (.ok (.ofRuns (allVerdicts config (· == k) (k + 1)))) (sweepsRequests config (k + 1))
      ((List.range (k + 1)).flatMap fun eng => sweepReport config (eng == k) eng) := by
  have hsweeps := performs_sweepEngines_corrupt (σ := σ) h hk hhealthy hfault hsizes hlimit
  have hrequests : sweepsRequests config (k + 1) =
      sweepsRequests config k ++ sweepRequests config k := by
    rw [sweepsRequests, List.range_succ, List.flatMap_append, List.flatMap_singleton,
      sweepsRequests]
  rw [allVerdicts, flatMap_last (sweepVerdicts config), flatMap_last (sweepReport config),
    hrequests, ← List.append_nil (sweepsRequests config k ++ sweepRequests config k),
    ← List.append_nil ((List.range k).flatMap (sweepReport config false) ++
      sweepReport config true k)]
  exact hsweeps.bind (performs_pure _ _)

theorem performs_testEngines_stalled (h : Afu.Idle config faults a) (hk : k < config.engines)
    (hhealthy : ∀ j < k, faults j = ⟨false, false⟩) (hfault : (faults k).stalled = true)
    {point : SweepPoint} {points : List SweepPoint} (hpoints : config.points k = point :: points)
    (hlimit : config.busyPolls < limit) :
    Performs (σ := σ) (testEngines limit (List.replicate config.engines config.reported)) a
      (.error (.hang limit)) (sweepsRequests config k ++ hungRequests k limit point .write)
      ((List.range k).flatMap (sweepReport config false) ++
        .line (sweepHeading config k) ::
          hungReport k limit point .write (Bus.serve a (sweepsRequests config k))) :=
  (performs_sweepEngines_stalled h hk hhealthy hfault hpoints hlimit).bind_error

end

/-- Engine `k` is the first that is stalled or corrupt. A stall of it is a hang; otherwise exactly its
reading runs fail. Either way the engines above it are left alone. -/
theorem localMemoryTest_firstFault {config : AfuConfig} (hv : config.Valid) {a : Afu}
    (ha : Afu.Reachable config a) (hoff : a.enabled = 0) {k : Nat} {e : Engine}
    (hk : a.engines[k]? = some e) (hfault : e.stalled = true ∨ e.corrupt = true)
    (hleast : ∀ j < k, ∀ f, a.engines[j]? = some f → f.stalled = false ∧ f.corrupt = false)
    {limit : Nat} (hlimit : config.busyPolls < limit)
    (hsizes : 0 < config.reported.sweepSizes.length) :
    ∃ answer session, (localMemoryTest limit).exec (Recorded.start a) = (answer, session) ∧
      (localMemoryTest limit).exec a = (answer, ⟨session.device.device, session.console⟩) ∧
      LeftAlone config k a session.device ∧
      (e.stalled = true → answer = .error (.hang limit)) ∧
      (e.stalled = false → ∃ stats, answer = .ok stats ∧
        stats.total = 12 * config.reported.sweepSizes.length * (k + 1) ∧
        stats.failed = 8 * config.reported.sweepSizes.length ∧
        stats.unchecked = 4 * config.reported.sweepSizes.length * (k + 1) ∧
        stats = .ofRuns (allVerdicts config (· == k) (k + 1)) ∧
        session.device.writes = Recorded.written (sweepsRequests config (k + 1)) ∧
        session.console = Console.empty.putAll (discoveryReport config.clamp a ++
          (List.range (k + 1)).flatMap fun eng => sweepReport config (eng == k) eng)) := by
  have hidle := ha.idle hv hoff
  have hlt : k < config.clamp.engines := by
    rw [← hidle.length_eq]
    exact (List.getElem?_eq_some_iff.1 hk).1
  have hhealthy : ∀ j < k, a.faults j = ⟨false, false⟩ := fun j hj =>
    Afu.faults_eq_none (hleast j hj)
  have hkfault := Afu.faults_eq hk
  have hdiscovery := upTo_discoveryRequests config.clamp.engines k
  cases hstalled : e.stalled with
  | true =>
    rw [hstalled] at hkfault
    obtain ⟨point, points, hpoints⟩ := exists_firstPoint config.clamp hsizes k
    have htest {σ : Type} [Bus σ] [Afu.Host σ] := performs_localMemoryTest hidle.toSound
      (performs_testEngines_stalled (σ := σ) hidle hlt hhealthy (by rw [hkfault]) hpoints hlimit)
    have hup := hdiscovery.append ((upTo_sweepsRequests config.clamp (Nat.le_succ k) (Nat.le_of_lt hlt)
      hidle.few).append (upTo_hungRequests (Nat.le_refl k) hlt hidle.few limit point .write))
    obtain ⟨hrecorded, hplain⟩ := exec_recorded htest
    refine ⟨_, _, hrecorded, hplain, ?_, fun _ => rfl, ?_⟩
    · exact leftAlone_serve hidle (htest (σ := Afu)).1 hup
    · intro hfree
      cases hfree
  | false =>
    have hcorrupt : e.corrupt = true := hfault.resolve_left (by rw [hstalled]; decide)
    rw [hstalled, hcorrupt] at hkfault
    have htest {σ : Type} [Bus σ] [Afu.Host σ] := performs_localMemoryTest hidle.toSound
      (performs_testEngines_corrupt (σ := σ) hidle hlt hhealthy hkfault hsizes hlimit)
    have hup := hdiscovery.append (upTo_sweepsRequests config.clamp (Nat.le_refl (k + 1)) hlt hidle.few)
    obtain ⟨htotal, hfailed, hunchecked⟩ := ofRuns_corrupt config k
    obtain ⟨hrecorded, hplain⟩ := exec_recorded htest
    refine ⟨_, _, hrecorded, hplain, ?_, ?_, ?_⟩
    · exact leftAlone_serve hidle (htest (σ := Afu)).1 hup
    · intro hstall
      cases hstall
    · intro _
      refine ⟨_, rfl, htotal, hfailed, hunchecked, rfl, ?_, rfl⟩
      rw [Recorded.writes_serve (htest (σ := Recorded Afu)).1, written_discovery]
      rfl

def threeEngines : AfuConfig :=
  { AfuConfig.standard with engines := 3 }

def corruptDevice : Afu :=
  (Afu.new threeEngines).run [.corrupt 1 true]

def stalledDevice : Afu :=
  corruptDevice.run [.stall 1 true, .stall 2 true]

theorem localMemoryTest_firstFault_threeEngines :
    (∃ stats, ((localMemoryTest 10).exec corruptDevice).1 = .ok stats ∧ stats.total = 144 ∧
      stats.failed = 48 ∧ stats.unchecked = 48) ∧
      LeftAlone threeEngines 1 corruptDevice
        ((localMemoryTest 10).exec (Recorded.start corruptDevice)).2.device ∧
      ((localMemoryTest 10).exec stalledDevice).1 = .error (.hang 10) := by
  have hsizes : threeEngines.reported.sweepSizes.length = 6 := by decide
  have hlimit : threeEngines.busyPolls < 10 := by decide
  have hcorrupt : Afu.Reachable threeEngines corruptDevice := ⟨_, rfl⟩
  have hstalled : Afu.Reachable threeEngines stalledDevice := hcorrupt.run _
  have hleast : ∀ a : Afu, (a.engines[0]?.any fun f => !f.stalled && !f.corrupt) = true →
      ∀ j < 1, ∀ f, a.engines[j]? = some f → f.stalled = false ∧ f.corrupt = false := by
    intro a ha j hj f hf
    cases Nat.lt_one_iff.1 hj
    rw [hf, Option.any_some, Bool.and_eq_true, Bool.not_eq_true', Bool.not_eq_true'] at ha
    exact ha
  obtain ⟨_, session, hrun, hplain, halone, _, hfailed⟩ := localMemoryTest_firstFault
    (by decide) hcorrupt (by decide) (k := 1) rfl (Or.inr rfl)
    (hleast corruptDevice (by decide)) hlimit (by rw [hsizes]; decide)
  obtain ⟨_, _, _, hstall, _, hhang, _⟩ := localMemoryTest_firstFault
    (by decide) hstalled (by decide) (k := 1) rfl (Or.inl rfl)
    (hleast stalledDevice (by decide)) hlimit (by rw [hsizes]; decide)
  obtain ⟨stats, rfl, htotal, hcount, hunchecked, _⟩ := hfailed rfl
  rw [hsizes] at htotal hcount hunchecked
  refine ⟨⟨stats, by rw [hplain], htotal, hcount, hunchecked⟩, ?_, ?_⟩
  · rw [hrun]
    exact halone
  · rw [hstall]
    exact hhang rfl

end Bench

end AfuBench
