import AfuBench.Proofs.BufferLines

namespace AfuBench.Line

variable {buf : List UInt64}

theorem zipIdx_map_range {α : Type} (f : Nat → α) (n : Nat) :
    ((List.range n).map f).zipIdx = (List.range n).map fun i => (f i, i) := by
  rw [List.zipIdx_eq_zip_range', List.length_map, List.length_range, ← List.range_eq_range',
    List.map_prod_right_eq_zip]

/-- Line `i` is not as a write of `count` lines from `base` on leaves it: the lines of the region
carry their address and the marker, and the line after them nothing. -/
def Bad (buf : List UInt64) (base : UInt64) (count i : Nat) : Prop :=
  if i < count then
    (buf.getD (8 * i) 0).toNat ≠ (base.toNat + i) % UInt64.size ∨
      buf.getD (8 * i + 7) 0 ≠ 0xdeadbeef
  else buf.getD (8 * i) 0 ≠ 0 ∨ buf.getD (8 * i + 7) 0 ≠ 0

instance (buf : List UInt64) (base : UInt64) (count i : Nat) : Decidable (Bad buf base count i) :=
  inferInstanceAs (Decidable (if i < count then _ ∨ _ else _ ∨ _))

theorem stamped_iff_not_bad (base : UInt64) {count i : Nat} (hi : i < count) :
    Stamped base i (lineAt buf i) ↔ ¬ Bad buf base count i := by
  have haddress : (base + UInt64.ofNat i).toNat = (base.toNat + i) % UInt64.size := by
    rw [UInt64.toNat_add, UInt64.toNat_ofNat', Nat.add_mod_mod]
  rw [Stamped, Bad, if_pos hi, first_lineAt, last_lineAt, ← UInt64.toNat_inj, haddress, not_or,
    not_not, not_not, marker]

theorem untouched_iff_not_bad (base : UInt64) (count : Nat) :
    Untouched (lineAt buf count) ↔ ¬ Bad buf base count count := by
  rw [Untouched, Bad, if_neg (Nat.lt_irrefl count), first_lineAt, last_lineAt, not_or, not_not,
    not_not]

def Judged (buf : List UInt64) (base : UInt64) (count : Nat) : WriteCheck → Prop
  | .badLine k => k ≤ count ∧ Bad buf base count k ∧ ∀ i, i < k → ¬ Bad buf base count i
  | .pass => ∀ i, i ≤ count → ¬ Bad buf base count i

theorem Judged.unique {base : UInt64} {count : Nat} {v w : WriteCheck}
    (hv : Judged buf base count v) (hw : Judged buf base count w) : v = w := by
  cases v with
  | pass =>
    cases w with
    | pass => rfl
    | badLine k => exact absurd hw.2.1 (hv k hw.1)
  | badLine j =>
    cases w with
    | pass => exact absurd hv.2.1 (hw j hv.1)
    | badLine k =>
      have hjk : ¬ j < k := fun hlt => hw.2.2 j hlt hv.2.1
      have hkj : ¬ k < j := fun hlt => hv.2.2 k hlt hw.2.1
      rw [Nat.le_antisymm (Nat.not_lt.1 hkj) (Nat.not_lt.1 hjk)]

theorem find?_unstamped {count : Nat} (base : UInt64) (h : 8 * count ≤ buf.length) :
    (((Blocks.whole words buf).take count).zipIdx.find? fun (line, i) => ¬ Stamped base i line) =
      ((List.range count).find? fun i => ¬ Stamped base i (lineAt buf i)).map
        fun i => (lineAt buf i, i) := by
  rw [take_lines h, zipIdx_map_range, List.find?_map]
  rfl

theorem judged_judge (base : UInt64) {count : Nat} (h : 8 * (count + 1) ≤ buf.length) :
    Judged buf base count (judge base count (Blocks.whole words buf)) := by
  rw [judge, find?_unstamped base (by omega), List.head?_drop, getElem?_lines h]
  cases hfind : (List.range count).find? fun i => ¬ Stamped base i (lineAt buf i) with
  | some k =>
    obtain ⟨hbad, hmem, hbefore⟩ := List.find?_range_eq_some.1 hfind
    have hk : k < count := List.mem_range.1 hmem
    simp only [decide_not, Bool.not_eq_true', decide_eq_false_iff_not, Bool.not_not,
      decide_eq_true_eq] at hbad hbefore
    refine ⟨Nat.le_of_lt hk, ?_, fun i hi => ?_⟩
    · rw [stamped_iff_not_bad base hk, not_not] at hbad
      exact hbad
    · exact (stamped_iff_not_bad base (Nat.lt_trans hi hk)).1 (hbefore i hi)
  | none =>
    have hregion := List.find?_range_eq_none.1 hfind
    simp only [decide_not, Bool.not_not, decide_eq_true_eq] at hregion
    have hgood (i : Nat) (hi : i < count) : ¬ Bad buf base count i :=
      (stamped_iff_not_bad base hi).1 (hregion i hi)
    change Judged buf base count (if Untouched (lineAt buf count) then .pass else .badLine count)
    split
    case isTrue htail =>
      intro i hi
      rcases Nat.lt_or_eq_of_le hi with hlt | rfl
      · exact hgood i hlt
      · exact (untouched_iff_not_bad base i).1 htail
    case isFalse htail =>
      rw [untouched_iff_not_bad base, not_not] at htail
      exact ⟨Nat.le_refl count, htail, hgood⟩

theorem checkWritten_eq_ok (hbuf : buf.length < maxWords) (base : UInt64) {count : Nat}
    (h : 8 * (count + 1) ≤ buf.length) :
    checkWritten buf base count = .ok (judge base count (Blocks.whole words buf)) :=
  map_require_eq_ok hbuf h _

theorem checkWritten_eq_error_iff (hbuf : buf.length < maxWords) (base : UInt64) (count : Nat)
    (e : DataError) :
    checkWritten buf base count = .error e ↔ buf.length < 8 * (count + 1) ∧
      e = .shortBuffer (if 8 * (count + 1) ≤ maxWords then 8 * (count + 1) else maxWords)
        buf.length :=
  map_require_eq_error_iff hbuf _ e

theorem checkWritten_eq_ok_iff (hbuf : buf.length < maxWords) (base : UInt64) (count : Nat)
    (verdict : WriteCheck) :
    checkWritten buf base count = .ok verdict ↔
      8 * (count + 1) ≤ buf.length ∧ Judged buf base count verdict := by
  by_cases h : 8 * (count + 1) ≤ buf.length
  · have hjudged := judged_judge base h
    rw [checkWritten_eq_ok hbuf base h, Except.ok.injEq]
    constructor
    · rintro rfl
      exact ⟨h, hjudged⟩
    · rintro ⟨_, hverdict⟩
      exact hjudged.unique hverdict
  · rw [(checkWritten_eq_error_iff hbuf base count _).2 ⟨by omega, rfl⟩]
    simp [h]

theorem bad_congr {other : List UInt64} (base : UInt64) (count i : Nat)
    (hfirst : other.getD (8 * i) 0 = buf.getD (8 * i) 0)
    (hlast : other.getD (8 * i + 7) 0 = buf.getD (8 * i + 7) 0) :
    Bad other base count i ↔ Bad buf base count i := by
  rw [Bad, Bad, hfirst, hlast]

theorem Judged.congr {other : List UInt64} {base : UInt64} {count : Nat} {verdict : WriteCheck}
    (hsame : ∀ i, i ≤ count → other.getD (8 * i) 0 = buf.getD (8 * i) 0 ∧
      other.getD (8 * i + 7) 0 = buf.getD (8 * i + 7) 0)
    (h : Judged buf base count verdict) : Judged other base count verdict := by
  have hbad (i : Nat) (hi : i ≤ count) : Bad other base count i ↔ Bad buf base count i :=
    bad_congr base count i (hsame i hi).1 (hsame i hi).2
  cases verdict with
  | pass => exact fun i hi => (hbad i hi).not.2 (h i hi)
  | badLine k =>
    obtain ⟨hk, hkbad, hbefore⟩ := h
    exact ⟨hk, (hbad k hk).2 hkbad, fun i hi => (hbad i (by omega)).not.2 (hbefore i hi)⟩

theorem not_lt_of_pass {base base' : UInt64} {count count' : Nat}
    (h : Judged buf base count .pass) (h' : Judged buf base' count' .pass) : ¬ count < count' := by
  intro hlt
  have htail := h count (Nat.le_refl count)
  have hline := h' count (Nat.le_of_lt hlt)
  rw [Bad, if_neg (Nat.lt_irrefl count), not_or, not_not, not_not] at htail
  rw [Bad, if_pos hlt, not_or, not_not, not_not, htail.2] at hline
  exact absurd hline.2 (by decide)

/-- The check of written lines fails only for want of words, and otherwise names the first bad line,
the one after the region included. Nothing but the first and the last word of these lines counts, and a
buffer passes for one number of lines at most. -/
theorem checkWritten_report (hbuf : buf.length < maxWords) (base : UInt64) (count : Nat) :
    (∀ e, checkWritten buf base count = .error e ↔ buf.length < 8 * (count + 1) ∧
      e = .shortBuffer (if 8 * (count + 1) ≤ maxWords then 8 * (count + 1) else maxWords)
        buf.length) ∧
    (∀ k, checkWritten buf base count = .ok (.badLine k) ↔ 8 * (count + 1) ≤ buf.length ∧
      k ≤ count ∧ Bad buf base count k ∧ ∀ i, i < k → ¬ Bad buf base count i) ∧
    (checkWritten buf base count = .ok .pass ↔ 8 * (count + 1) ≤ buf.length ∧
      ∀ i, i ≤ count → ¬ Bad buf base count i) ∧
    (∀ other : List UInt64, other.length < maxWords → 8 * (count + 1) ≤ buf.length →
      8 * (count + 1) ≤ other.length →
      (∀ i, i ≤ count → other.getD (8 * i) 0 = buf.getD (8 * i) 0 ∧
        other.getD (8 * i + 7) 0 = buf.getD (8 * i + 7) 0) →
      checkWritten other base count = checkWritten buf base count) ∧
    ∀ base' count', checkWritten buf base count = .ok .pass →
      checkWritten buf base' count' = .ok .pass → count' = count := by
  refine ⟨checkWritten_eq_error_iff hbuf base count,
    fun k => checkWritten_eq_ok_iff hbuf base count (.badLine k),
    checkWritten_eq_ok_iff hbuf base count .pass, ?_, ?_⟩
  · intro other hother hlen hlen' hsame
    have hjudged := judged_judge base hlen
    rw [checkWritten_eq_ok hbuf base hlen]
    exact (checkWritten_eq_ok_iff hother base count _).2 ⟨hlen', hjudged.congr hsame⟩
  · intro base' count' hpass hpass'
    have hjudged := ((checkWritten_eq_ok_iff hbuf base count .pass).1 hpass).2
    have hjudged' := ((checkWritten_eq_ok_iff hbuf base' count' .pass).1 hpass').2
    have hlt := not_lt_of_pass hjudged hjudged'
    have hgt := not_lt_of_pass hjudged' hjudged
    omega

/-- Two lines from the last address on, which wraps round to zero, and a line left alone. -/
def wrappedRegion : List UInt64 :=
  [0xffffffffffffffff, 1, 2, 3, 4, 5, 6, 0xdeadbeef, 0, 1, 2, 3, 4, 5, 6, 0xdeadbeef,
    0, 1, 2, 3, 4, 5, 6, 0]

theorem checkWritten_report_wrapped :
    wrappedRegion.length < maxWords ∧
      checkWritten wrappedRegion 0xffffffffffffffff 2 = .ok .pass ∧
      checkWritten wrappedRegion 0xffffffffffffffff 1 = .ok (.badLine 1) ∧
      checkWritten wrappedRegion 0xffffffffffffffff 3 = .error (.shortBuffer 32 24) ∧
      checkWritten wrappedRegion 7 (UInt64.size - 1) =
        .error (.shortBuffer (UInt64.size - 1) 24) := by
  have hbuf : wrappedRegion.length < maxWords := by decide
  obtain ⟨_, _, hpass, _, _⟩ := checkWritten_report hbuf 0xffffffffffffffff 2
  obtain ⟨_, hbad, _, _, _⟩ := checkWritten_report hbuf 0xffffffffffffffff 1
  obtain ⟨hshort, _⟩ := checkWritten_report hbuf 0xffffffffffffffff 3
  obtain ⟨hhuge, _⟩ := checkWritten_report hbuf 7 (UInt64.size - 1)
  exact ⟨hbuf, hpass.2 ⟨by decide, by decide⟩, (hbad 1).2 ⟨by decide, by decide, by decide, by decide⟩,
    (hshort _).2 ⟨by decide, by decide⟩, (hhuge _).2 ⟨by decide, by decide⟩⟩

end AfuBench.Line
