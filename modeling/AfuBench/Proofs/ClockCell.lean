import AfuBench.Bench.ClockCell

namespace AfuBench

namespace Clocked

variable {σ α β : Type}

theorem run_clock_bind (k : Float → Clocked σ β) (s : Session σ) (mhz : Float) :
    (clock >>= k).run.run (s, mhz) = (k mhz).run.run (s, mhz) := by
  rw [run_bind]
  rfl

variable [Bus σ]

theorem run_refreshClock (s : Session σ) (mhz : Float) :
    ∃ answer t cell, (Bench.knownClock mhz).run.run s = (answer, t) ∧
      refreshClock.run.run (s, mhz) = (answer.map fun _ => (), t, cell) ∧
      (cell = mhz ∨ (mhz == 0.0) = true) ∧ ∀ used, answer = .ok used → cell = used := by
  rw [refreshClock, run_clock_bind, Bench.knownClock]
  cases hzero : mhz == 0.0 with
  | false =>
    refine ⟨.ok mhz, s, mhz, rfl, rfl, .inl rfl, ?_⟩
    intro used hused
    exact Except.ok.inj hused
  | true =>
    simp only [if_true]
    rw [run_lift_bind, run_bind]
    rcases Bench.clockMhz.run.run s with ⟨e | measured, t⟩
    · exact ⟨.error e, t, mhz, rfl, rfl, .inl rfl, nofun⟩
    · refine ⟨.ok measured, _, measured, rfl, rfl, .inr trivial, ?_⟩
      intro used hused
      exact Except.ok.inj hused

theorem run_measureAll (engines : List (Nat × Capabilities)) (mode : Mode) (s : Session σ)
    (cell : Float) :
    ∃ answer t, (do
        let cycles ← lift Bench.clockCycles
        let mhz ← clock
        lift (Bench.measureAll engines mode mhz cycles) : Clocked σ _).run.run (s, cell) =
          (answer, t, cell) ∧
      (do
        let cycles ← Bench.clockCycles
        let results ← Bench.measureAll engines mode cell cycles
        return (cell, results) : Bench σ _).run.run s = (answer.map (cell, ·), t) := by
  rw [run_lift_bind, run_bind]
  rcases Bench.clockCycles.run.run s with ⟨e | cycles, t⟩
  · exact ⟨.error e, t, rfl, rfl⟩
  simp only [run_clock_bind, run_lift]
  rw [run_bind]
  rcases (Bench.measureAll engines mode cell cycles).run.run t with ⟨e | results, u⟩
  · exact ⟨.error e, u, rfl, rfl⟩
  · exact ⟨.ok results, u, rfl, rfl⟩

theorem run_bandwidth (mask : UInt64) (caps : List Capabilities) (size : Nat) (mode : Mode)
    (limit : Nat) (s : Session σ) (mhz : Float) :
    ∃ answer t cell, (bandwidth mask caps size mode limit).run.run (s, mhz) = (answer, t, cell) ∧
      (Bench.bandwidth mask caps size mode limit mhz).run.run s = (answer.map (cell, ·), t) ∧
      (cell = mhz ∨ (mhz == 0.0) = true ∧
        ((Bench.traffic mask caps size mode limit).run.run s).1 = .ok ()) := by
  rw [bandwidth, run_lift_bind, Bench.bandwidth_eq, run_bind]
  rcases (Bench.traffic mask caps size mode limit).run.run s with ⟨e | _, t⟩
  · exact ⟨.error e, t, mhz, rfl, rfl, .inl rfl⟩
  obtain ⟨known, u, cell, hknown, hrefresh, hcell, hused⟩ := run_refreshClock t mhz
  simp only
  rw [run_bind refreshClock, Bench.figures, run_bind (Bench.knownClock mhz), hrefresh, hknown]
  cases known with
  | error e => exact ⟨.error e, u, cell, rfl, rfl, hcell.imp_right fun h => ⟨h, trivial⟩⟩
  | ok used =>
    obtain rfl := hused used rfl
    obtain ⟨answer, v, hwith, hfrom⟩ := run_measureAll (selected mask caps) mode u cell
    exact ⟨answer, v, cell, hwith, hfrom, hcell.imp_right fun h => ⟨h, trivial⟩⟩

end Clocked

end AfuBench
