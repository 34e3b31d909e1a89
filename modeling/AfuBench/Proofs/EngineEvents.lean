import AfuBench.Proofs.Performs

namespace AfuBench

namespace Slot

def seen (engines eng : Nat) (requests : List Bus.Request) : List Event :=
  events engines eng (requests.map Bus.Request.operation)

theorem seen_append (engines eng : Nat) (before after : List Bus.Request) :
    seen engines eng (before ++ after) = seen engines eng before ++ seen engines eng after := by
  rw [seen, List.map_append, events_append]
  rfl

theorem seen_cons (engines eng : Nat) (request : Bus.Request) (rest : List Bus.Request) :
    seen engines eng (request :: rest) =
      (event? engines eng request.operation).toList ++ seen engines eng rest := by
  rw [seen, List.map_cons, events, List.filterMap_cons]
  cases event? engines eng request.operation <;> rfl

theorem seen_repeated (engines eng n : Nat) (requests : List Bus.Request) :
    seen engines eng (Bus.repeated n requests) =
      (List.replicate n (seen engines eng requests)).flatten := by
  induction n with
  | zero => rfl
  | succ n ih =>
    rw [Bus.repeated_succ, seen_append, ih, List.replicate_succ, List.flatten_cons]

theorem event?_read {index : Nat} (hindex : index ≠ Register.activeMask) (engines eng : Nat) :
    event? engines eng (.read (8 * index)) = none := by
  rw [event?, if_neg (by omega)]

theorem event?_writeEngine {engines e reg : Nat} (he : e < engines)
    (hlen : engines ≤ Register.maxEngines) (hreg : reg < Register.perEngine) (eng : Nat)
    (value : UInt64) :
    event? engines eng (.write (8 * Register.engineIndex e reg) value) =
      if e = eng then some (.write reg value) else none := by
  rw [event?_write, Register.target_engineIndex he hlen hreg]

theorem event?_enable (engines eng : Nat) (mask : UInt64) :
    event? engines eng (.write (8 * Register.enableMask) mask) =
      if Word.bit mask eng then some .enable else none := by
  rw [event?_write]
  rfl

theorem event?_disable (engines eng : Nat) (mask : UInt64) :
    event? engines eng (.write (8 * Register.disableMask) mask) =
      if Word.bit mask eng then some .disable else none := by
  rw [event?_write]
  rfl

end Slot

namespace Afu

structure Sound (config : AfuConfig) (a : Afu) : Prop extends Fixed config a where
  valid : config.Valid
  few : config.engines ≤ Register.maxEngines

theorem serve_read {index : Nat} (hindex : index ≠ Register.activeMask) (a : Afu)
    (rest : List Bus.Request) :
    Bus.serve a (.read (8 * index) :: rest) = Bus.serve a rest := by
  change Bus.serve (a.read (8 * index)).2 rest = Bus.serve a rest
  rw [read_word, readWord_snd, if_neg hindex]

variable {config : AfuConfig} {a : Afu}

theorem Reachable.sound (hv : config.Valid) (h : Reachable config a) : Sound config.clamp a where
  toFixed := h.fixed hv
  valid := AfuConfig.clamp_valid hv
  few := config.clamp_engines_le

namespace Sound

theorem serve (h : Sound config a) (requests : List Bus.Request) :
    Sound config (Bus.serve a requests) where
  toFixed := by
    rw [Bus.serve_eq_run]
    exact fixed_run h.valid h.few h.toFixed _
  valid := h.valid
  few := h.few

theorem length_le (h : Sound config a) : a.engines.length ≤ Register.maxEngines := by
  rw [h.length_eq]
  exact h.few

theorem lt_maxEngines (h : Sound config a) {eng : Nat} (heng : eng < config.engines) :
    eng < Register.maxEngines :=
  Nat.lt_of_lt_of_le heng h.few

theorem slot?_serve (h : Sound config a) {eng : Nat} (heng : eng < config.engines)
    (requests : List Bus.Request) :
    (Bus.serve a requests).slot? eng =
      (a.slot? eng).map fun s => s.run config (Slot.seen config.engines eng requests) := by
  rw [Bus.serve_eq_run, slot?_run h.valid h.few h.toFixed heng]
  rfl

theorem slot?_of_seen (h : Sound config a) {eng : Nat} (heng : eng < config.engines) {s : Slot}
    (hs : a.slot? eng = some s) {requests : List Bus.Request} {events : List Slot.Event}
    (hseen : Slot.seen config.engines eng requests = events) :
    (Bus.serve a requests).slot? eng = some (s.run config events) := by
  rw [h.slot?_serve heng, hs, hseen, Option.map_some]

theorem exists_slot (h : Sound config a) {eng : Nat} (heng : eng < config.engines) :
    ∃ s, a.slot? eng = some s := by
  rw [← h.length_eq] at heng
  refine ⟨⟨a.engines[eng], Word.bit a.enabled eng⟩, ?_⟩
  rw [slot?, List.getElem?_eq_getElem heng, Option.map_some]

end Sound

end Afu

namespace Bench

variable {σ : Type} [Bus σ] [Afu.Host σ] {config : AfuConfig} {a : Afu}

theorem performs_readEngineWord {eng reg : Nat} (heng : eng < Register.maxEngines)
    (hreg : reg < Register.perEngine) (a : Afu) :
    Performs (σ := σ) (readEngine eng reg) a
      (.ok (a.readWord (Register.engineIndex eng reg)).1)
      [.read (8 * Register.engineIndex eng reg)] [] := by
  have hin : ¬ (Register.maxEngines ≤ eng ∨ Register.perEngine ≤ reg) := by omega
  rw [readEngine, if_neg hin]
  exact performs_read _ a

theorem performs_readEngine (h : Afu.Sound config a) {eng reg : Nat}
    (heng : eng < config.engines) (hreg : reg < Register.perEngine) {s : Slot}
    (hs : a.slot? eng = some s) :
    Performs (σ := σ) (readEngine eng reg) a (.ok (s.engine.readRegister config s.running reg))
      [.read (8 * Register.engineIndex eng reg)] [] := by
  have hword := Afu.readWord_engine hs h.length_le hreg
  rw [h.config_eq] at hword
  rw [← hword]
  exact performs_readEngineWord (h.lt_maxEngines heng) hreg a

theorem performs_writeEngine (h : Afu.Sound config a) {eng reg : Nat}
    (heng : eng < config.engines) (hreg : reg < Register.perEngine) (value : UInt64) :
    Performs (σ := σ) (writeEngine eng reg value) a (.ok ())
      [.write (8 * Register.engineIndex eng reg) value] [] := by
  have hin : ¬ (Register.maxEngines ≤ eng ∨ Register.perEngine ≤ reg) := by
    have := h.lt_maxEngines heng
    omega
  rw [writeEngine, if_neg hin]
  refine performs_write ?_
  rw [← h.length_eq] at heng
  rw [Afu.writeWord, Register.target_engineIndex heng h.length_le hreg]

theorem performs_enable (h : Afu.Sound config a) (mask : UInt64) :
    Performs (σ := σ) (enable mask) a (.ok ()) [.write (8 * Register.enableMask) mask] [] := by
  refine performs_write ?_
  obtain ⟨engines, cycles, henable, _⟩ := Afu.enable_eq (by rw [h.config_eq]; exact h.valid) mask
  rw [Afu.writeWord, Register.target_eq_enable_iff.2 rfl]
  simp only
  rw [henable]

theorem performs_disable (mask : UInt64) (a : Afu) :
    Performs (σ := σ) (disable mask) a (.ok ()) [.write (8 * Register.disableMask) mask] [] :=
  performs_write rfl

end Bench

end AfuBench
