import AfuBench.Afu.Checked
import AfuBench.Proofs.DumpCodec
import AfuBench.Proofs.EngineInvariant
import AfuBench.Proofs.LaneHash

namespace AfuBench

namespace Checked

variable {α β γ : Type}

/-- A count that 64 bits do not hold may stop a run, and a memory of one of the large sizes. -/
inductive Stop (large : Nat → Prop) : Trap → Prop where
  | count {n : Nat} (h : 2 ^ 64 ≤ n) : Stop large (.overflow n)
  | memory {bytes : Nat} (h : large bytes) : Stop large (.capacity bytes)

def Meets (large : Nat → Prop) (x : Checked α) (post : α → Prop) : Prop :=
  (∃ t, Stop large t ∧ x = .error t) ∨ ∃ v, x = .ok v ∧ post v

variable {large : Nat → Prop} {x : Checked α} {k : α → Checked β} {post : α → Prop} {after : β → Prop}

theorem meets_ok {v : α} (h : post v) : Meets large (.ok v) post :=
  .inr ⟨v, rfl, h⟩

theorem meets_pure {v : α} (h : post v) : Meets large (pure v) post :=
  meets_ok h

theorem Meets.mono {post' : α → Prop} (h : Meets large x post) (himp : ∀ v, post v → post' v) :
    Meets large x post' :=
  h.imp_right fun ⟨v, hv, hpost⟩ => ⟨v, hv, himp v hpost⟩

theorem Meets.bind (hx : Meets large x post) (hk : ∀ v, post v → Meets large (k v) after) :
    Meets large (x >>= k) after := by
  rcases hx with ⟨t, ht, rfl⟩ | ⟨v, rfl, hv⟩
  · exact .inl ⟨t, ht, rfl⟩
  · exact hk v hv

theorem Meets.bind_pure (hx : Meets large x post) {f : α → β} (hf : ∀ v, post v → after (f v)) :
    Meets large (x >>= fun v => pure (f v)) after :=
  hx.bind fun v hv => meets_pure (hf v hv)

theorem meets_count (n : Nat) : Meets large (count n) (· = n) := by
  rw [count]
  split
  · exact meets_ok rfl
  · rename_i hbig
    exact .inl ⟨_, .count (Nat.not_lt.1 hbig), rfl⟩

end Checked

namespace CheckedEngine

/-- The row holds the lines of the memory, where the width of the device makes lines at all. -/
structure Represents (config : AfuConfig) (c : CheckedEngine) (e : Engine) : Prop where
  state : c.state = { e with memory := [] }
  memory : wordCount config.caps.width = .ok config.lineWords →
    c.memory = e.memory.flatten ∧ ∀ line ∈ e.memory, line.length = config.lineWords

end CheckedEngine

/-- The memory that the lines of a direction need, if it is more than a memory can have. -/
def Burst.Outsizes (words : Nat) (b : Burst) (bytes : Nat) : Prop :=
  b.enabled = true ∧ bytes = 8 * (b.lines * words) ∧ 2 ^ 63 ≤ bytes

def Engine.Outsizes (words : Nat) (e : Engine) (bytes : Nat) : Prop :=
  e.unlimited = false ∧ (e.writing.Outsizes words bytes ∨ e.reading.Outsizes words bytes)

theorem Burst.lines_ofWord_lt (w : UInt64) : (ofWord w).lines < 2 ^ 32 := by
  have hcount : (ofWord w).count ≤ 0xffff := by
    rw [ofWord, UInt64.toNat_and]
    exact Nat.and_le_right
  have hsize : (ofWord w).size ≤ 0xffff := by
    rw [ofWord, UInt64.toNat_and]
    exact Nat.and_le_right
  rw [lines]
  split
  · calc (ofWord w).count * (ofWord w).size ≤ 0xffff * 0xffff := Nat.mul_le_mul hcount hsize
      _ < 2 ^ 32 := by decide
  · decide

/-- A direction has fewer than 2^32 lines. -/
theorem Engine.Outsizes.wide {config : AfuConfig} {e : Engine} {bytes : Nat}
    (h : e.Outsizes config.lineWords bytes) : 2 ^ 31 < config.caps.width ∧ 2 ^ 63 ≤ bytes := by
  have hwide (w : UInt64) (hb : (Burst.ofWord w).Outsizes config.lineWords bytes) :
      2 ^ 31 < config.caps.width ∧ 2 ^ 63 ≤ bytes := by
    obtain ⟨-, rfl, hbytes⟩ := hb
    refine ⟨?_, hbytes⟩
    by_contra hnarrow
    refine Nat.not_lt.2 hbytes ?_
    have hlines := Burst.lines_ofWord_lt w
    have hwidth : 8 * config.lineWords ≤ config.caps.width := Nat.mul_div_le config.caps.width 8
    calc 8 * ((Burst.ofWord w).lines * config.lineWords)
        = (Burst.ofWord w).lines * (8 * config.lineWords) := Nat.mul_left_comm ..
      _ ≤ (2 ^ 32 - 1) * 2 ^ 31 :=
        Nat.mul_le_mul (Nat.le_pred_of_lt hlines) (Nat.le_trans hwidth (Nat.not_lt.1 hnarrow))
      _ < 2 ^ 63 := by decide
  exact h.2.elim (hwide e.writeWord) (hwide e.readWord)

namespace Engine

end Engine

namespace CheckedEngine

open Checked

variable {config : AfuConfig} {c : CheckedEngine} {e : Engine}

theorem Represents.update (h : Represents config c e) {f : Engine → Engine}
    (hstate : f { e with memory := [] } = { f e with memory := [] })
    (hmemory : (f e).memory = e.memory) :
    Represents config { c with state := f c.state } (f e) where
  state := by rw [h.state, hstate]
  memory := by
    rw [hmemory]
    exact h.memory

theorem Represents.stop (h : Represents config c e) :
    Represents config { c with state := c.state.stop config } (e.stop config) := by
  refine h.update ?_ (Engine.memory_stop config e)
  rw [Engine.stop, Engine.stop]
  split <;> rfl

theorem Represents.writeRegister (h : Represents config c e) (reg : Nat) (value : UInt64) :
    Represents config { c with state := c.state.writeRegister reg value }
      (e.writeRegister reg value) := by
  refine h.update ?_ ?_
  · simp only [Engine.writeRegister]
    split
    · rfl
    split
    · rfl
    split <;> rfl
  · obtain ⟨readWord, writeWord, seed, hwrite⟩ := e.writeRegister_eq reg value
    rw [hwrite]

end CheckedEngine

end AfuBench
