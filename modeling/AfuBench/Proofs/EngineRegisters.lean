import AfuBench.Proofs.AccessErrors
import AfuBench.Proofs.AddressDecoding
import AfuBench.Proofs.WritePlan

namespace AfuBench

structure Engine.Takes (reg : Nat) (value : UInt64) (e f : Engine) : Prop where
  readWord : f.readWord = if reg = Register.readTraffic then value else e.readWord
  writeWord : f.writeWord = if reg = Register.writeTraffic then value else e.writeWord
  seed : f.seed = if reg = Register.seed then value else e.seed
  rest : { f with readWord := e.readWord, writeWord := e.writeWord, seed := e.seed } = e

theorem Engine.takes_writeRegister (reg : Nat) (value : UInt64) (e : Engine) :
    e.Takes reg value (e.writeRegister reg value) := by
  fun_cases writeRegister reg value e with
  | case1 hread =>
    subst hread
    exact ⟨rfl, rfl, rfl, rfl⟩
  | case2 hread hwrite =>
    subst hwrite
    exact ⟨rfl, rfl, rfl, rfl⟩
  | case3 hread hwrite hseed =>
    subst hseed
    exact ⟨rfl, rfl, rfl, rfl⟩
  | case4 hread hwrite hseed =>
    exact ⟨(if_neg hread).symm, (if_neg hwrite).symm, (if_neg hseed).symm, rfl⟩

namespace Afu

structure Sets (eng reg : Nat) (value : UInt64) (a b : Afu) : Prop where
  rest : { b with engines := a.engines } = a
  length : b.engines.length = a.engines.length
  others : ∀ j, j ≠ eng → b.engines[j]? = a.engines[j]?
  engine : ∃ e f, a.engines[eng]? = some e ∧ b.engines[eng]? = some f ∧ e.Takes reg value f

theorem sets_modify {a : Afu} {eng : Nat} (heng : eng < a.engines.length) (reg : Nat)
    (value : UInt64) :
    Sets eng reg value a
      { a with engines := a.engines.modify eng (Engine.writeRegister reg value) } where
  rest := rfl
  length := List.length_modify _ _ _
  others j hj := List.getElem?_modify_ne _ _ hj.symm
  engine := by
    have he := List.getElem?_eq_getElem heng
    refine ⟨_, _, he, ?_, Engine.takes_writeRegister reg value _⟩
    rw [List.getElem?_modify_eq, he]
    rfl

structure Routes (a : Afu) (eng reg : Nat) (value : UInt64) : Prop where
  read {e : Engine} (he : a.engines[eng]? = some e) :
    a.read (8 * Register.engineIndex eng reg) =
      (.ok (e.readRegister a.config (Word.bit a.enabled eng) reg), a)
  readAbsent (habsent : a.engines.length ≤ eng) :
    a.read (8 * Register.engineIndex eng reg) = (.ok 0, a)
  accepted : (a.write (8 * Register.engineIndex eng reg) value).1 = .ok () ↔ eng < a.engines.length
  written (haccepted : (a.write (8 * Register.engineIndex eng reg) value).1 = .ok ()) :
    Sets eng reg value a (a.write (8 * Register.engineIndex eng reg) value).2
  writeAbsent (habsent : a.engines.length ≤ eng) :
    a.write (8 * Register.engineIndex eng reg) value =
      (.error (.refused (8 * Register.engineIndex eng reg) .readOnly), a)

variable {a : Afu} {eng reg : Nat}

theorem write_engine (hlen : a.engines.length ≤ Register.maxEngines)
    (heng : eng < a.engines.length) (hreg : reg < Register.perEngine) (value : UInt64) :
    a.write (8 * Register.engineIndex eng reg) value =
      (.ok (), { a with engines := a.engines.modify eng (Engine.writeRegister reg value) }) := by
  rw [write_word, writeWord, Register.target_engineIndex heng hlen hreg]

theorem write_absent (hwindow : eng < Register.maxEngines) (hreg : reg < Register.perEngine)
    (habsent : a.engines.length ≤ eng) (value : UInt64) :
    a.write (8 * Register.engineIndex eng reg) value =
      (.error (.refused (8 * Register.engineIndex eng reg) .readOnly), a) := by
  rw [write_word, writeWord, Register.target_engineIndex_of_le hwindow hreg habsent]

theorem routes_of_le (hlen : a.engines.length ≤ Register.maxEngines)
    (hwindow : eng < Register.maxEngines) (hreg : reg < Register.perEngine) (value : UInt64) :
    Routes a eng reg value where
  read {e} he := by
    obtain ⟨heng, _⟩ := List.getElem?_eq_some_iff.1 he
    rw [read_word, readWord, Register.source_engineIndex heng hlen hreg]
    simp only [readEngine, he]
  readAbsent habsent := by
    rw [read_word, readWord, Register.source_engineIndex_of_le hwindow hreg habsent]
  accepted := by
    constructor
    · intro haccepted
      by_contra habsent
      rw [write_absent hwindow hreg (Nat.le_of_not_lt habsent)] at haccepted
      cases haccepted
    · intro heng
      rw [write_engine hlen heng hreg]
  written haccepted := by
    rcases Nat.lt_or_ge eng a.engines.length with heng | habsent
    · rw [write_engine hlen heng hreg]
      exact sets_modify heng reg value
    · rw [write_absent hwindow hreg habsent] at haccepted
      cases haccepted
  writeAbsent habsent := write_absent hwindow hreg habsent value

end Afu

namespace Bench

variable {σ α : Type}

structure Guarded (p : Bench (Recorded σ) α) (device : σ) (eng reg : Nat) (entry : Access)
    (answer : Except AccessError α) : Prop where
  touches : (p.exec (.start device)).2.log ≠ [] ↔
    eng < Register.maxEngines ∧ reg < Register.perEngine
  inside (hinside : eng < Register.maxEngines ∧ reg < Register.perEngine) :
    (p.exec (.start device)).2.log = [entry] ∧
      (p.exec (.start device)).1 = answer.mapError BenchError.access
  outside (houtside : ¬ (eng < Register.maxEngines ∧ reg < Register.perEngine)) :
    p.exec (.start device) = (.error (.registerIndex eng reg), ⟨.start device, .empty⟩)

theorem guarded_of_eq {p : Bench (Recorded σ) α} {device : σ} {eng reg : Nat} {entry : Access}
    {answer : Except AccessError α} {f : Recorded σ → Except AccessError α × Recorded σ}
    (hp : p = if Register.maxEngines ≤ eng ∨ Register.perEngine ≤ reg then
      throw (.registerIndex eng reg) else access f)
    (hanswer : (f (.start device)).1 = answer)
    (hentry : (f (.start device)).2.accesses.toList = [entry]) :
    Guarded p device eng reg entry answer := by
  have hsplit : Register.maxEngines ≤ eng ∨ Register.perEngine ≤ reg ↔
      ¬ (eng < Register.maxEngines ∧ reg < Register.perEngine) := by omega
  have hinside (h : eng < Register.maxEngines ∧ reg < Register.perEngine) :
      (p.exec (.start device)).2.log = [entry] ∧
        (p.exec (.start device)).1 = answer.mapError BenchError.access := by
    rw [hp, if_neg (fun hout => hsplit.1 hout h), ← hanswer]
    exact ⟨hentry, rfl⟩
  have houtside (h : ¬ (eng < Register.maxEngines ∧ reg < Register.perEngine)) :
      p.exec (.start device) = (.error (.registerIndex eng reg), ⟨.start device, .empty⟩) := by
    rw [hp, if_pos (hsplit.2 h)]
    rfl
  refine ⟨⟨?_, ?_⟩, hinside, houtside⟩
  · intro hlog
    by_contra h
    rw [houtside h] at hlog
    exact hlog rfl
  · intro h
    rw [(hinside h).1]
    exact List.cons_ne_nil _ _

variable [Bus σ]

theorem guarded_readEngine (device : σ) (eng reg : Nat) :
    Guarded (readEngine eng reg) device eng reg
      (.read (8 * Register.engineIndex eng reg)
        (Bus.read (8 * Register.engineIndex eng reg) device).1)
      (Bus.read (8 * Register.engineIndex eng reg) device).1 :=
  guarded_of_eq rfl rfl rfl

theorem guarded_writeEngine (device : σ) (eng reg : Nat) (value : UInt64) :
    Guarded (writeEngine eng reg value) device eng reg
      (.write (8 * Register.engineIndex eng reg) value
        (Bus.write (8 * Register.engineIndex eng reg) value device).1)
      (Bus.write (8 * Register.engineIndex eng reg) value device).1 :=
  guarded_of_eq rfl rfl rfl

/-- Whatever the device and whatever was done to it: the bench makes an access for a register exactly
if there can be such a register, the register map of the device is exact, and the access arrives at the
register of that engine if the device has the engine, and nowhere else. -/
theorem engineRegisters_exact (device : σ) (config : AfuConfig) (ops : List Afu.Operation)
    (eng reg : Nat) (value : UInt64) :
    Guarded (readEngine eng reg) device eng reg
        (.read (8 * Register.engineIndex eng reg)
          (Bus.read (8 * Register.engineIndex eng reg) device).1)
        (Bus.read (8 * Register.engineIndex eng reg) device).1 ∧
      Guarded (writeEngine eng reg value) device eng reg
        (.write (8 * Register.engineIndex eng reg) value
          (Bus.write (8 * Register.engineIndex eng reg) value device).1)
        (Bus.write (8 * Register.engineIndex eng reg) value device).1 ∧
      ((Afu.new config).run ops).engines.length = min config.engines 16 ∧
      Register.Exact (min config.engines 16) ∧
      (eng < Register.maxEngines → reg < Register.perEngine →
        Afu.Routes ((Afu.new config).run ops) eng reg value) := by
  have hlength : ((Afu.new config).run ops).engines.length = min config.engines 16 :=
    (Afu.sameShape_run (Afu.new config) ops).length_new
  have hlen : min config.engines 16 ≤ Register.maxEngines := Nat.min_le_right _ _
  refine ⟨guarded_readEngine device eng reg, guarded_writeEngine device eng reg value, hlength,
    Register.exact_of_le hlen, ?_⟩
  intro hwindow hreg
  exact Afu.routes_of_le (hlength ▸ hlen) hwindow hreg value

def partialWindow : AfuConfig :=
  { AfuConfig.standard with engines := 3 }

/-- The third engine has a seed, the fourth would have one in a larger device, and there is no
seventeenth in any device. -/
theorem engineRegisters_exact_threeEngines :
    2 < Register.maxEngines ∧ 3 < Register.maxEngines ∧ Register.seed < Register.perEngine ∧
      (∃ b e, (Afu.new partialWindow).write (8 * 0x422) 0xf02 = (.ok (), b) ∧
        b.engines[2]? = some e ∧ e.seed = 0xf02 ∧ e.readWord = 0) ∧
      (Afu.new partialWindow).write (8 * 0x432) 0xf03 =
        (.error (.refused (8 * 0x432) .readOnly), Afu.new partialWindow) ∧
      (writeEngine 16 Register.seed 0xf10).exec (Recorded.start (Afu.new partialWindow)) =
        (.error (.registerIndex 16 Register.seed), ⟨Recorded.start (Afu.new partialWindow), .empty⟩) := by
  have hthird : 2 < Register.maxEngines := by decide
  have hfourth : 3 < Register.maxEngines := by decide
  have hseed : Register.seed < Register.perEngine := by decide
  obtain ⟨_, _, _, _, hroutes⟩ :=
    engineRegisters_exact (Afu.new partialWindow) partialWindow [] 2 Register.seed 0xf02
  obtain ⟨_, _, _, _, hrefuses⟩ :=
    engineRegisters_exact (Afu.new partialWindow) partialWindow [] 3 Register.seed 0xf03
  obtain ⟨_, houtside, _, _, _⟩ :=
    engineRegisters_exact (Afu.new partialWindow) partialWindow [] 16 Register.seed 0xf10
  refine ⟨hthird, hfourth, hseed, ?_, (hrefuses hfourth hseed).writeAbsent (by decide),
    houtside.outside (by decide)⟩
  have haccepted := (hroutes hthird hseed).accepted.2 (by decide)
  obtain ⟨e, f, he, hf, htakes⟩ := ((hroutes hthird hseed).written haccepted).engine
  obtain rfl : Engine.idle = e := Option.some.inj he
  exact ⟨_, f, Prod.ext haccepted rfl, hf, htakes.seed, htakes.readWord⟩

end Bench

end AfuBench
