import AfuBench.Bench.LocalMemory
import AfuBench.Bus.Recorded
import AfuBench.Proofs.Performs

namespace AfuBench

def Session.unrecorded {σ : Type} (s : Session (Recorded σ)) : Session σ :=
  ⟨s.device.device, s.console⟩

namespace Bench

variable {σ α β γ : Type}

def Mirrors (p : Bench (Recorded σ) α) (q : Bench σ α) : Prop :=
  ∀ s, q.run.run s.unrecorded = ((p.run.run s).1, (p.run.run s).2.unrecorded)

section

variable {p : Bench (Recorded σ) α} {q : Bench σ α} {k : α → Bench (Recorded σ) β} {l : α → Bench σ β}

theorem mirrors_pure (x : α) : Mirrors (σ := σ) (pure x) (pure x) := fun _ => rfl

theorem mirrors_throw (e : BenchError) : Mirrors (σ := σ) (α := α) (throw e) (throw e) := fun _ => rfl

theorem Mirrors.bind (hp : Mirrors p q) (hk : ∀ x, Mirrors (k x) (l x)) :
    Mirrors (p >>= k) (q >>= l) := by
  intro s
  rw [run_bind, run_bind, hp s]
  rcases p.run.run s with ⟨r, t⟩
  cases r with
  | ok x => exact hk x t
  | error e => rfl

theorem Mirrors.tryCatch {handler : BenchError → Bench (Recorded σ) α}
    {handler' : BenchError → Bench σ α} (hp : Mirrors p q)
    (hhandler : ∀ e, Mirrors (handler e) (handler' e)) :
    Mirrors (tryCatch p handler) (tryCatch q handler') := by
  intro s
  rw [run_tryCatch, run_tryCatch, hp s]
  rcases p.run.run s with ⟨r, t⟩
  cases r with
  | ok x => rfl
  | error e => exact hhandler e t

theorem mirrors_forM {xs : List γ} {f : γ → Bench (Recorded σ) PUnit} {g : γ → Bench σ PUnit}
    (h : ∀ x, Mirrors (f x) (g x)) : Mirrors (xs.forM f) (xs.forM g) := by
  induction xs with
  | nil => exact mirrors_pure _
  | cons x xs ih => exact (h x).bind fun _ => ih

theorem mirrors_mapM {xs : List γ} {f : γ → Bench (Recorded σ) β} {g : γ → Bench σ β}
    (h : ∀ x, Mirrors (f x) (g x)) : Mirrors (xs.mapM f) (xs.mapM g) := by
  induction xs with
  | nil => exact mirrors_pure _
  | cons x xs ih =>
    rw [List.mapM_cons, List.mapM_cons]
    exact (h x).bind fun _ => ih.bind fun _ => mirrors_pure _

theorem mirrors_foldlM {xs : List γ} {f : β → γ → Bench (Recorded σ) β} {g : β → γ → Bench σ β}
    (h : ∀ y x, Mirrors (f y x) (g y x)) (y : β) : Mirrors (xs.foldlM f y) (xs.foldlM g y) := by
  induction xs generalizing y with
  | nil => exact mirrors_pure _
  | cons x xs ih =>
    rw [List.foldlM_cons, List.foldlM_cons]
    exact (h y x).bind ih

end

theorem mirrors_print (text : String) : Mirrors (σ := σ) (print text) (print text) := fun _ => rfl

theorem mirrors_printLine (text : String) : Mirrors (σ := σ) (printLine text) (printLine text) :=
  fun _ => rfl

theorem mirrors_ofData (r : Except DataError α) : Mirrors (σ := σ) (ofData r) (ofData r) := by
  cases r with
  | ok x => exact mirrors_pure x
  | error e => exact mirrors_throw _

theorem mirrors_pollFrom {c : Bench (Recorded σ) Bool} {d : Bench σ Bool} (h : Mirrors c d)
    (failed left : Nat) : Mirrors (pollFrom c failed left) (pollFrom d failed left) := by
  induction left generalizing failed with
  | zero => exact mirrors_throw _
  | succ left ih =>
    refine h.bind fun found => ?_
    cases found with
    | false => exact ih _
    | true => exact mirrors_pure _

theorem Mirrors.exec {p : Bench (Recorded σ) α} {q : Bench σ α} (h : Mirrors p q) (d : σ) :
    q.exec d = ((p.exec (Recorded.start d)).1, (p.exec (Recorded.start d)).2.unrecorded) :=
  h ⟨Recorded.start d, .empty⟩

variable [Bus σ]

theorem mirrors_read (index : Nat) : Mirrors (σ := σ) (read index) (read index) := fun _ => rfl

theorem mirrors_write (index : Nat) (value : UInt64) :
    Mirrors (σ := σ) (write index value) (write index value) := fun _ => rfl

theorem mirrors_readGlobal (reg : Nat) : Mirrors (σ := σ) (readGlobal reg) (readGlobal reg) := by
  rw [readGlobal, readGlobal]
  split
  · exact mirrors_throw _
  · exact mirrors_read _

theorem mirrors_readEngine (eng reg : Nat) :
    Mirrors (σ := σ) (readEngine eng reg) (readEngine eng reg) := by
  rw [readEngine, readEngine]
  split
  · exact mirrors_throw _
  · exact mirrors_read _

theorem mirrors_writeEngine (eng reg : Nat) (value : UInt64) :
    Mirrors (σ := σ) (writeEngine eng reg value) (writeEngine eng reg value) := by
  rw [writeEngine, writeEngine]
  split
  · exact mirrors_throw _
  · exact mirrors_write _ _

theorem mirrors_waitDone (mask : UInt64) (limit : Nat) :
    Mirrors (σ := σ) (waitDone mask limit) (waitDone mask limit) :=
  mirrors_pollFrom ((mirrors_read _).bind fun _ => (mirrors_read _).bind fun _ => mirrors_pure _) 0 _

theorem mirrors_waitStarted (limit : Nat) :
    Mirrors (σ := σ) (waitStarted limit) (waitStarted limit) :=
  mirrors_pollFrom ((mirrors_read _).bind fun _ => mirrors_pure _) 0 _

theorem mirrors_waitIdle (limit : Nat) : Mirrors (σ := σ) (waitIdle limit) (waitIdle limit) :=
  mirrors_pollFrom ((mirrors_read _).bind fun _ => mirrors_pure _) 0 _

theorem mirrors_describeEngine (eng : Nat) :
    Mirrors (σ := σ) (describeEngine eng) (describeEngine eng) := by
  refine (mirrors_readEngine _ _).bind fun _ => ?_
  refine (mirrors_printLine _).bind fun _ => ?_
  refine (mirrors_printLine _).bind fun _ => ?_
  refine (mirrors_printLine _).bind fun _ => ?_
  refine (mirrors_printLine _).bind fun _ => ?_
  refine (mirrors_printLine _).bind fun _ => ?_
  refine (mirrors_readEngine _ _).bind fun _ => ?_
  refine (mirrors_printLine _).bind fun _ => ?_
  refine (mirrors_readEngine _ _).bind fun _ => ?_
  refine (mirrors_printLine _).bind fun _ => ?_
  exact (mirrors_readEngine _ _).bind fun _ => mirrors_printLine _

theorem mirrors_describeHang (eng : Nat) :
    Mirrors (σ := σ) (describeHang eng) (describeHang eng) := by
  refine (mirrors_printLine _).bind fun _ => ?_
  refine (mirrors_printLine _).bind fun _ => ?_
  refine (mirrors_read _).bind fun _ => ?_
  refine (mirrors_read _).bind fun _ => ?_
  exact (mirrors_printLine _).bind fun _ => mirrors_describeEngine eng

theorem mirrors_awaitRun (eng limit : Nat) :
    Mirrors (σ := σ) (awaitRun eng limit) (awaitRun eng limit) := by
  refine (mirrors_waitDone _ limit).tryCatch fun e => ?_
  cases e with
  | hang polls => exact (mirrors_describeHang eng).bind fun _ => mirrors_throw _
  | _ => exact mirrors_throw _

theorem mirrors_runPoint (eng limit : Nat) (point : SweepPoint) (mode : Mode) :
    Mirrors (σ := σ) (runPoint eng limit point mode) (runPoint eng limit point mode) := by
  refine (mirrors_print _).bind fun _ => ?_
  refine (mirrors_writeEngine _ _ _).bind fun _ => ?_
  refine (mirrors_writeEngine _ _ _).bind fun _ => ?_
  refine (mirrors_writeEngine _ _ _).bind fun _ => ?_
  refine (mirrors_write _ _).bind fun _ => ?_
  refine (mirrors_awaitRun _ _).bind fun trips => ?_
  refine (mirrors_write _ _).bind fun _ => ?_
  refine (mirrors_readEngine _ _).bind fun hash => ?_
  split
  · exact (mirrors_printLine _).bind fun _ => (mirrors_printLine _).bind fun _ => mirrors_pure _
  · exact (mirrors_printLine _).bind fun _ => mirrors_pure _

theorem mirrors_sweep (eng : Nat) (caps : Capabilities) (limit : Nat) :
    Mirrors (σ := σ) (sweep eng caps limit) (sweep eng caps limit) := by
  refine (mirrors_printLine _).bind fun _ => ?_
  refine (mirrors_ofData _).bind fun points => ?_
  refine mirrors_foldlM ?_ _
  intro stats run
  exact (mirrors_runPoint _ _ _ _).bind fun _ => mirrors_pure _

theorem mirrors_sweepEngines (limit eng : Nat) (caps : List Capabilities) (stats : SweepStats) :
    Mirrors (σ := σ) (sweepEngines limit eng caps stats) (sweepEngines limit eng caps stats) := by
  induction caps generalizing eng stats with
  | nil => exact mirrors_pure _
  | cons c caps ih =>
    refine (mirrors_sweep _ _ _).bind fun result => ?_
    split
    · exact mirrors_pure _
    · exact ih _ _

theorem mirrors_discover (eng : Nat) : Mirrors (σ := σ) (discover eng) (discover eng) := by
  refine (mirrors_readEngine _ _).bind fun _ => ?_
  exact (mirrors_forM fun _ => mirrors_printLine _).bind fun _ => mirrors_pure _

theorem mirrors_setUnlimited (size : Nat) (mode : Mode) (eng : Nat) :
    Mirrors (σ := σ) (setUnlimited size mode eng) (setUnlimited size mode eng) :=
  (mirrors_writeEngine _ _ _).bind fun _ => (mirrors_writeEngine _ _ _).bind fun _ =>
    mirrors_writeEngine _ _ _

theorem mirrors_clockMhz : Mirrors (σ := σ) clockMhz clockMhz := by
  refine (mirrors_read _).bind fun enabled => ?_
  split
  · exact mirrors_pure _
  · refine (mirrors_read _).bind fun _ => (mirrors_read _).bind fun _ => ?_
    refine (mirrors_read _).bind fun _ => ?_
    split
    · exact mirrors_pure _
    · exact mirrors_pure _

theorem mirrors_knownClock (mhz : Float) : Mirrors (σ := σ) (knownClock mhz) (knownClock mhz) := by
  rw [knownClock, knownClock]
  split
  · exact mirrors_clockMhz.bind fun _ => (mirrors_printLine _).bind fun _ => mirrors_pure _
  · exact mirrors_pure _

theorem mirrors_measure (mode : Mode) (mhz : Float) (cycles : UInt64) (eng : Nat)
    (caps : Capabilities) :
    Mirrors (σ := σ) (measure mode mhz cycles eng caps) (measure mode mhz cycles eng caps) := by
  refine (mirrors_readEngine _ _).bind fun _ => (mirrors_readEngine _ _).bind fun _ => ?_
  split
  · exact (mirrors_printLine _).bind fun _ => (mirrors_throw _).bind fun _ =>
      (mirrors_printLine _).bind fun _ => mirrors_pure _
  · exact (mirrors_printLine _).bind fun _ => mirrors_pure _

theorem mirrors_bandwidth (mask : UInt64) (caps : List Capabilities) (size : Nat) (mode : Mode)
    (limit : Nat) (mhz : Float) :
    Mirrors (σ := σ) (bandwidth mask caps size mode limit mhz)
      (bandwidth mask caps size mode limit mhz) := by
  refine (mirrors_forM fun _ => mirrors_setUnlimited _ _ _).bind fun _ => ?_
  refine (mirrors_write _ _).bind fun _ => ?_
  refine (mirrors_waitStarted _).bind fun _ => ?_
  refine (mirrors_write _ _).bind fun _ => ?_
  refine (mirrors_waitIdle _).bind fun _ => ?_
  refine (mirrors_knownClock _).bind fun _ => ?_
  refine (mirrors_read _).bind fun _ => ?_
  exact (mirrors_mapM fun _ => mirrors_measure _ _ _ _ _).bind fun _ => mirrors_pure _

theorem mirrors_bandwidthAll (caps : List Capabilities) (limit : Nat) :
    Mirrors (σ := σ) (bandwidthAll caps limit) (bandwidthAll caps limit) := by
  cases caps with
  | nil => exact mirrors_pure _
  | cons first caps =>
    refine (mirrors_foldlM ?_ _).bind fun _ => mirrors_pure _
    intro mhz size
    refine (mirrors_printLine _).bind fun _ => (mirrors_printLine _).bind fun _ => ?_
    refine mirrors_foldlM ?_ _
    intro mhz mode
    exact (mirrors_bandwidth _ _ _ _ _ _).bind fun _ => mirrors_pure _

theorem mirrors_localMemoryTest (limit : Nat) :
    Mirrors (σ := σ) (localMemoryTest limit) (localMemoryTest limit) := by
  refine (mirrors_readGlobal _).bind fun _ => (mirrors_readGlobal _).bind fun _ => ?_
  refine (mirrors_printLine _).bind fun _ => ?_
  refine ((mirrors_read _).bind fun _ => mirrors_pure _).bind fun engines => ?_
  refine (mirrors_printLine _).bind fun _ => ?_
  refine (mirrors_mapM mirrors_discover).bind fun caps => ?_
  refine (mirrors_printLine _).bind fun _ => ?_
  refine (mirrors_sweepEngines _ _ _ _).bind fun result => ?_
  obtain ⟨stats, clean⟩ := result
  cases clean with
  | false => exact mirrors_pure _
  | true => exact (mirrors_bandwidthAll _ _).bind fun _ => mirrors_pure _

end Bench

end AfuBench
