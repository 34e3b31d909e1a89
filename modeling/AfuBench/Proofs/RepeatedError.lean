import AfuBench.Proofs.HashPeriod
import AfuBench.Proofs.WordLanes

namespace AfuBench

def strike (lane : Nat) (p : UInt32) (v : List UInt64) : List UInt64 :=
  v.modify (lane / 2) (· ^^^ if lane % 2 = 0 then Word.ofLanes p 0 else Word.ofLanes 0 p)

theorem length_strike (lane : Nat) (p : UInt32) (v : List UInt64) :
    (strike lane p v).length = v.length :=
  List.length_modify ..

theorem strike_cons (lane : Nat) (p : UInt32) (w : UInt64) (v : List UInt64) :
    strike (lane + 2) p (w :: v) = w :: strike lane p v := by
  have hhalf : (lane + 2) / 2 = lane / 2 + 1 := by omega
  rw [strike, hhalf, Nat.add_mod_right, List.modify_succ_cons, strike]

theorem lanes_strike (lane : Nat) (p : UInt32) (v : List UInt64) :
    Word.lanes (strike lane p v) = (Word.lanes v).modify lane (· ^^^ p) := by
  induction v generalizing lane with
  | nil =>
    rw [strike, List.modify_nil, Word.lanes_nil, List.modify_nil]
  | cons w v ih =>
    match lane with
    | 0 =>
      have hlow : Word.lowLane (w ^^^ Word.ofLanes p 0) = Word.lowLane w ^^^ p := by
        rw [Word.lowLane_xor, Word.lowLane_ofLanes]
      have hhigh : Word.highLane (w ^^^ Word.ofLanes p 0) = Word.highLane w := by
        rw [Word.highLane_xor, Word.highLane_ofLanes, UInt32.xor_zero]
      change Word.lanes ((w ^^^ Word.ofLanes p 0) :: v) = _
      rw [Word.lanes_cons, Word.lanes_cons, hlow, hhigh, List.modify_zero_cons]
    | 1 =>
      have hlow : Word.lowLane (w ^^^ Word.ofLanes 0 p) = Word.lowLane w := by
        rw [Word.lowLane_xor, Word.lowLane_ofLanes, UInt32.xor_zero]
      have hhigh : Word.highLane (w ^^^ Word.ofLanes 0 p) = Word.highLane w ^^^ p := by
        rw [Word.highLane_xor, Word.highLane_ofLanes]
      change Word.lanes ((w ^^^ Word.ofLanes 0 p) :: v) = _
      rw [Word.lanes_cons, Word.lanes_cons, hlow, hhigh, List.modify_succ_cons,
        List.modify_zero_cons]
    | lane + 2 =>
      rw [strike_cons, Word.lanes_cons, Word.lanes_cons, ih, List.modify_succ_cons,
        List.modify_succ_cons]

theorem getD_lanes_strike_self {lane : Nat} (p : UInt32) {v : List UInt64}
    (hlane : lane < 2 * v.length) :
    (Word.lanes (strike lane p v)).getD lane 0 = (Word.lanes v).getD lane 0 ^^^ p := by
  rw [lanes_strike, List.getD_eq_getElem?_getD, List.getD_eq_getElem?_getD, List.getElem?_modify,
    getElem?_lanes v hlane]
  simp

theorem getD_lanes_strike_of_ne {lane other : Nat} (p : UInt32) (v : List UInt64)
    (hne : lane ≠ other) :
    (Word.lanes (strike lane p v)).getD other 0 = (Word.lanes v).getD other 0 := by
  rw [lanes_strike, List.getD_eq_getElem?_getD, List.getD_eq_getElem?_getD, List.getElem?_modify]
  simp [hne]

theorem map_modify {α β : Type} {f : α → α} {g : α → β} (f' : β → β) {xs : List α} (i : Nat)
    (h : ∀ x ∈ xs, g (f x) = f' (g x)) : (xs.modify i f).map g = (xs.map g).modify i f' := by
  induction xs generalizing i with
  | nil => rw [List.modify_nil, List.map_nil, List.modify_nil]
  | cons x xs ih =>
    obtain ⟨hx, hxs⟩ := List.forall_mem_cons.1 h
    cases i with
    | zero => rw [List.modify_zero_cons, List.map_cons, List.map_cons, List.modify_zero_cons, hx]
    | succ i => rw [List.modify_succ_cons, List.map_cons, List.map_cons, List.modify_succ_cons,
        ih i hxs]

def strikeAt (lane : Nat) (p : UInt32) (beat : Nat) (stream : List (List UInt64)) :
    List (List UInt64) :=
  stream.modify beat (strike lane p)

theorem length_of_mem_strikeAt {words : Nat} {stream : List (List UInt64)} (lane : Nat) (p : UInt32)
    (beat : Nat) (hlen : ∀ v ∈ stream, v.length = words) :
    ∀ v ∈ strikeAt lane p beat stream, v.length = words := by
  have hlengths : (strikeAt lane p beat stream).map List.length = stream.map List.length := by
    rw [strikeAt, map_modify id beat fun v _ => length_strike lane p v]
    exact List.modify_id ..
  intro v hv
  have hmem : v.length ∈ stream.map List.length := by
    rw [← hlengths]
    exact List.mem_map_of_mem hv
  obtain ⟨w, hw, hsame⟩ := List.mem_map.1 hmem
  rw [← hsame, hlen w hw]

section StrikeAt

variable {lane words : Nat} {p : UInt32} {stream : List (List UInt64)}

theorem column_strikeAt_self (beat : Nat) (hlen : ∀ v ∈ stream, v.length = words)
    (hlane : lane < 2 * words) :
    column lane (strikeAt lane p beat stream) = (column lane stream).modify beat (· ^^^ p) := by
  refine map_modify (· ^^^ p) beat fun v hv => getD_lanes_strike_self p ?_
  rw [hlen v hv]
  exact hlane

theorem column_strikeAt_of_ne (beat : Nat) {other : Nat} (hne : lane ≠ other) :
    column other (strikeAt lane p beat stream) = column other stream := by
  rw [column, strikeAt, map_modify id beat fun v _ => getD_lanes_strike_of_ne p v hne]
  exact List.modify_id ..

theorem laneHash_strikeAt {beat : Nat} (hbeat : beat < stream.length)
    (hlen : ∀ v ∈ stream, v.length = words) (hlane : lane < 2 * words) :
    laneHash (strikeAt lane p beat stream) lane =
      laneHash stream lane ^^^ RollingHash.coast^[stream.length - 1 - beat] p := by
  have hcolumn : (column lane stream).length = stream.length := List.length_map ..
  rw [laneHash, column_strikeAt_self beat hlen hlane, RollingHash.fold_modify _ p (by omega), hcolumn,
    laneHash]

end StrikeAt

theorem streamHash_strikeAt_strikeAt_iff {words lane i j : Nat} {p : UInt32}
    {stream : List (List UInt64)} (hlen : ∀ v ∈ stream, v.length = words)
    (hlane : lane < 2 * words) (hp : p ≠ 0) (hij : i < j) (hj : j < stream.length) :
    streamHash words (strikeAt lane p j (strikeAt lane p i stream)) = streamHash words stream ↔
      2 ^ 32 - 1 ∣ j - i := by
  have hfirst : (strikeAt lane p i stream).length = stream.length := List.length_modify ..
  have honce := length_of_mem_strikeAt lane p i hlen
  have hsame (other : Nat) (_ : other < 2 * words) (hne : other ≠ lane) :
      column other (strikeAt lane p j (strikeAt lane p i stream)) = column other stream := by
    rw [column_strikeAt_of_ne j hne.symm, column_strikeAt_of_ne i hne.symm]
  have hspan : stream.length - 1 - i = stream.length - 1 - j + (j - i) := by omega
  rw [streamHash_eq_iff_of_lane (length_of_mem_strikeAt lane p j honce) hlen hlane hsame,
    laneHash_strikeAt (by omega) honce hlane, hfirst, laneHash_strikeAt (by omega) hlen hlane,
    UInt32.xor_assoc, hspan,
    Function.iterate_add_apply, ← RollingHash.iterate_coast_xor, Word.xor_eq_left_iff,
    RollingHash.iterate_coast_eq_zero_iff, UInt32.xor_eq_zero_iff]
  exact RollingHash.iterate_coast_eq_self_iff hp (j - i)

namespace Checker

/-- Without data every word but zero comes back after as many beats as there are such words, and not
before. So two equal changes of one lane cancel out in the value of a stream exactly if their
distance is a multiple of this period. -/
theorem maximal_period :
    (∀ h : UInt32, h ≠ 0 →
      IsLeast {k | 1 ≤ k ∧ (RollingHash.step · 0)^[k] h = h} (2 ^ 32 - 1)) ∧
    ∀ (words : Nat) (stream : List (List UInt64)) (lane i j : Nat) (p : UInt32),
      (∀ v ∈ stream, v.length = words) → lane < 2 * words → p ≠ 0 → i < j → j < stream.length →
      ∃ fresh final struck, Checker.new (8 * words) = .ok fresh ∧ fresh.feed stream = .ok final ∧
        fresh.feed (strikeAt lane p j (strikeAt lane p i stream)) = .ok struck ∧
        (struck.value = final.value ↔ 2 ^ 32 - 1 ∣ j - i) := by
  refine ⟨?_, ?_⟩
  · intro h hne
    have hback (k : Nat) : RollingHash.coast^[k] h = h ↔ 2 ^ 32 - 1 ∣ k :=
      RollingHash.iterate_coast_eq_self_iff hne k
    refine ⟨⟨by decide, (hback _).2 (Nat.dvd_refl _)⟩, ?_⟩
    rintro k ⟨hpos, hk⟩
    exact Nat.le_of_dvd hpos ((hback k).1 hk)
  · intro words stream lane i j p hlen hlane hp hij hj
    have hwords : 0 < words := by omega
    have hfresh : (freshBuckets (2 * words)).length = 2 * words := List.length_replicate
    have hstruck :=
      length_of_mem_strikeAt lane p j (length_of_mem_strikeAt lane p i hlen)
    refine ⟨⟨freshBuckets (2 * words)⟩, _, _, ?_, (feed_eq_ok_iff hwords hfresh).2 ⟨hlen, rfl⟩,
      (feed_eq_ok_iff hwords hfresh).2 ⟨hstruck, rfl⟩,
      streamHash_strikeAt_strikeAt_iff hlen hlane hp hij hj⟩
    rw [Checker.new, wordCount_eight_mul hwords]
    rfl

/-- Three beats, of which the first and the last lose a bit of the second high lane. -/
def threeBeats : List (List UInt64) :=
  [[1, 2, 3], [4, 5, 6], [7, 8, 9]]

theorem maximal_period_three_beats :
    IsLeast {k | 1 ≤ k ∧ (RollingHash.step · 0)^[k] 1 = 1} (2 ^ 32 - 1) ∧
      ∃ fresh final struck, Checker.new 24 = .ok fresh ∧ fresh.feed threeBeats = .ok final ∧
        fresh.feed [[1, 0x8000000000000002, 3], [4, 5, 6], [7, 0x8000000000000008, 9]] =
          .ok struck ∧
        struck.value ≠ final.value := by
  obtain ⟨hperiod, htwice⟩ := maximal_period
  have hlen : ∀ v ∈ threeBeats, v.length = 3 := by decide
  obtain ⟨fresh, final, struck, hnew, hfinal, hstruck, hvalue⟩ :=
    htwice 3 threeBeats 3 0 2 0x80000000 hlen (by decide) (by decide) (by decide) (by decide)
  have hdistance : ¬ 2 ^ 32 - 1 ∣ 2 - 0 := by decide
  exact ⟨hperiod 1 (by decide), fresh, final, struck, hnew, hfinal, hstruck,
    fun heq => hdistance (hvalue.1 heq)⟩

end Checker

end AfuBench
