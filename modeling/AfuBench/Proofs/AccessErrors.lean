import AfuBench.Proofs.CheckedDevice

namespace AfuBench

namespace Register

def Writable (engines index : Nat) : Prop :=
  index = enableMask ∨ index = disableMask ∨ (∃ reg < globalCount, index = globalIndex reg) ∨
    ∃ eng < engines, ∃ reg < perEngine, index = engineIndex eng reg

end Register

namespace Engine

end Engine

namespace Afu

variable {a : Afu}

theorem SameShape.length_new {config : AfuConfig} (h : SameShape (new config) a) :
    a.engines.length = config.clamp.engines :=
  h.length.trans List.length_replicate

end Afu

namespace CheckedAfu

theorem Agrees.answer {β : Type} {large : Nat → Prop} {x : Checked (β × CheckedAfu)} {y : β × Afu}
    (h : Agrees large x y) {v : β} {d : CheckedAfu} (hx : x = .ok (v, d)) : y.1 = v := by
  rcases h with ⟨t, -, hstop⟩ | ⟨r, hr, hanswer, -⟩
  · rw [hx] at hstop
    cases hstop
  · rw [hx] at hr
    obtain rfl := Except.ok.inj hr
    exact hanswer.symm

end CheckedAfu

namespace Afu

end Afu

end AfuBench
