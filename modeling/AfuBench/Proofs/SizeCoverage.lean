import AfuBench.Bench.SizeLoop
import AfuBench.Proofs.SweepPoints
import Mathlib.Algebra.Group.Nat.Even
import Mathlib.Logic.Function.Iterate

namespace AfuBench

section

variable {next : Nat → Nat} {max steps start : Nat}

theorem eq_iterate_of_getElem?_sizesFrom {i size : Nat}
    (h : (sizesFrom next max steps start)[i]? = some size) : size = next^[i] start := by
  induction steps generalizing start i with
  | zero => cases h
  | succ steps ih =>
    rw [sizesFrom] at h
    split at h
    · cases i with
      | zero => exact (Option.some.inj h).symm
      | succ i =>
        have hrest : size = next^[i] (next start) := ih h
        exact hrest
    · cases h

theorem sizesFrom_eq_nil_iff (hsteps : max < steps + start) :
    sizesFrom next max steps start = [] ↔ max < start := by
  cases steps with
  | zero => exact iff_of_true rfl (by omega)
  | succ steps =>
    rw [sizesFrom]
    split
    · exact iff_of_false (List.cons_ne_nil _ _) (by omega)
    · exact iff_of_true rfl (by omega)

def GrowsTo (next : Nat → Nat) (max : Nat) : Prop :=
  ∀ size, 0 < size → size ≤ max → size < next size

theorem GrowsTo.add_le (h : GrowsTo next max) (hstart : 0 < start) {i size : Nat}
    (hsize : (sizesFrom next max steps start)[i]? = some size) : start + i ≤ size := by
  induction steps generalizing start i with
  | zero => cases hsize
  | succ steps ih =>
    rw [sizesFrom] at hsize
    split at hsize
    case isTrue hle =>
      have hlt := h start hstart hle
      cases i with
      | zero => exact Nat.le_of_eq (Option.some.inj hsize)
      | succ i =>
        have hrest := ih (Nat.lt_trans hstart hlt) hsize
        omega
    case isFalse => cases hsize

theorem GrowsTo.pairwise (h : GrowsTo next max) (hstart : 0 < start) :
    (sizesFrom next max steps start).Pairwise (· < ·) := by
  induction steps generalizing start with
  | zero => exact List.Pairwise.nil
  | succ steps ih =>
    rw [sizesFrom]
    split
    case isTrue hle =>
      have hlt := h start hstart hle
      have hpos := Nat.lt_trans hstart hlt
      refine List.Pairwise.cons ?_ (ih hpos)
      intro size hsize
      obtain ⟨i, hi⟩ := List.mem_iff_getElem?.1 hsize
      have hfirst := h.add_le hpos hi
      omega
    case isFalse => exact List.Pairwise.nil

theorem GrowsTo.exists_getLast? (h : GrowsTo next max) (hstart : 0 < start) (hle : start ≤ max)
    (hsteps : max < steps + start) :
    ∃ last, (sizesFrom next max steps start).getLast? = some last ∧ 0 < last ∧ last ≤ max ∧
      max < next last := by
  induction steps generalizing start with
  | zero => omega
  | succ steps ih =>
    have hlt := h start hstart hle
    rw [sizesFrom, if_pos hle]
    by_cases hnext : next start ≤ max
    · obtain ⟨last, hlast, hrest⟩ := ih (Nat.lt_trans hstart hlt) hnext (by omega)
      refine ⟨last, ?_, hrest⟩
      rw [List.getLast?_cons, hlast, Option.getD_some]
    · have hend : sizesFrom next max steps (next start) = [] :=
        (sizesFrom_eq_nil_iff (by omega)).2 (by omega)
      exact ⟨start, by rw [hend]; rfl, hstart, hle, by omega⟩

theorem le_iterate (hgrow : ∀ size, 0 < size → size < next size) (hstart : 0 < start) (k : Nat) :
    start ≤ next^[k] start := by
  induction k generalizing start with
  | zero => exact Nat.le_refl start
  | succ k ih =>
    have hlt := hgrow start hstart
    rw [Function.iterate_succ_apply]
    exact Nat.le_trans (Nat.le_of_lt hlt) (ih (Nat.lt_trans hstart hlt))

theorem mem_sizesFrom_iff (hgrow : ∀ size, 0 < size → size < next size) (hstart : 0 < start)
    (hsteps : max < steps + start) {size : Nat} :
    size ∈ sizesFrom next max steps start ↔ size ≤ max ∧ ∃ k, size = next^[k] start := by
  constructor
  · intro hsize
    have hle := (mem_sizesFrom (fun s hs _ => Nat.lt_trans hs (hgrow s hs)) hstart hsize).2
    obtain ⟨k, hk⟩ := List.mem_iff_getElem?.1 hsize
    exact ⟨hle, k, eq_iterate_of_getElem?_sizesFrom hk⟩
  · rintro ⟨hle, k, rfl⟩
    -- the start is within the limit as well, so a step is left for it
    have hfirst := le_iterate hgrow hstart k
    obtain ⟨steps, rfl⟩ : ∃ n, steps = n + 1 := ⟨steps - 1, by omega⟩
    rw [sizesFrom, if_pos (Nat.le_trans hfirst hle)]
    induction k generalizing start steps with
    | zero => exact List.mem_cons_self
    | succ k ih =>
      have hlt := hgrow start hstart
      have hpos := Nat.lt_trans hstart hlt
      have hrest := le_iterate hgrow hpos k
      rw [Function.iterate_succ_apply] at hle ⊢
      obtain ⟨steps, rfl⟩ : ∃ n, steps = n + 1 := ⟨steps - 1, by omega⟩
      refine List.mem_cons_of_mem start ?_
      rw [sizesFrom, if_pos (Nat.le_trans hrest hle)]
      exact ih hpos hle hrest steps (by omega)

theorem GrowsTo.exists_sizeLoop {next? : UInt32 → Option UInt32} {max start : UInt32}
    (h : GrowsTo next max.toNat)
    (hnext : ∀ size : UInt32, size ≤ max →
      ∃ larger, next? size = some larger ∧ larger.toNat = next size.toNat)
    (hstart : 0 < start.toNat) (hsteps : max.toNat < steps + start.toNat) :
    ∃ sizes, SizeLoop next? max start sizes ∧
      sizes.map UInt32.toNat = sizesFrom next max.toNat steps start.toNat := by
  induction steps generalizing start with
  | zero => exact ⟨[], .past (UInt32.lt_iff_toNat_lt.2 (by omega)), rfl⟩
  | succ steps ih =>
    rw [sizesFrom]
    split
    case isTrue hle =>
      have hword : start ≤ max := UInt32.le_iff_toNat_le.2 hle
      have hlt := h _ hstart hle
      obtain ⟨larger, hlarger, htoNat⟩ := hnext start hword
      have hpos : 0 < larger.toNat := by omega
      obtain ⟨sizes, hloop, hsizes⟩ := ih hpos (by omega)
      refine ⟨start :: sizes, .visit hword hlarger hloop, ?_⟩
      rw [List.map_cons, hsizes, htoNat]
    case isFalse hgt => exact ⟨[], .past (UInt32.lt_iff_toNat_lt.2 (Nat.not_le.1 hgt)), rfl⟩

end

namespace SizeWord

theorem exists_successor? {a : UInt32} (h : a.toNat + 1 < UInt32.size) :
    ∃ word, successor? a = some word ∧ word.toNat = a.toNat + 1 :=
  ⟨a + 1, if_pos h, (UInt32.toNat_add a 1).trans (Nat.mod_eq_of_lt h)⟩

theorem exists_tripled? {a : UInt32} (h : a.toNat * 3 < UInt32.size) :
    ∃ word, tripled? a = some word ∧ word.toNat = a.toNat * 3 :=
  ⟨a * 3, if_pos h, (UInt32.toNat_mul a 3).trans (Nat.mod_eq_of_lt h)⟩

theorem exists_doubled? {a : UInt32} (h : a.toNat * 2 < UInt32.size) :
    ∃ word, doubled? a = some word ∧ word.toNat = a.toNat * 2 := by
  refine ⟨a <<< 1, if_pos h, ?_⟩
  rw [UInt32.toNat_shiftLeft, Nat.shiftLeft_eq]
  exact Nat.mod_eq_of_lt h

end SizeWord

namespace Capabilities

variable {c : Capabilities}

theorem growsTo_nextSweepSize (c : Capabilities) : GrowsTo c.nextSweepSize c.maxBurst := by
  intro size hpos hle
  rw [nextSweepSize]
  split
  · omega
  · split <;> omega

theorem lt_nextBandwidthSize (c : Capabilities) {size : Nat} (hpos : 0 < size) :
    size < c.nextBandwidthSize size := by
  rw [nextBandwidthSize]
  split <;> omega

theorem toNat_limitWord (hmax : c.maxBurst < 2 ^ 30) : c.limitWord.toNat = c.maxBurst :=
  UInt32.toNat_ofNat_of_lt' (Nat.lt_trans hmax (by decide))

theorem exists_nextSweepWord? (hmax : c.maxBurst < 2 ^ 30) {size : UInt32}
    (hsize : size ≤ c.limitWord) :
    ∃ larger, c.nextSweepWord? size = some larger ∧
      larger.toNat = c.nextSweepSize size.toNat := by
  have hlimit := toNat_limitWord hmax
  have hle : size.toNat ≤ c.maxBurst := hlimit ▸ UInt32.le_iff_toNat_le.1 hsize
  have hwords : UInt32.size = 4294967296 := rfl
  have hnear : size < 4 ∨ size = c.limitWord ↔ size.toNat < 4 ∨ size.toNat = c.maxBurst := by
    rw [UInt32.lt_iff_toNat_lt, ← UInt32.toNat_inj, hlimit]
    rfl
  simp only [nextSweepWord?, nextSweepSize, hnear, Nat.mul_comm _ size.toNat]
  split
  · exact SizeWord.exists_doubled? (by omega)
  split
  · exact SizeWord.exists_successor? (by omega)
  · obtain ⟨tripled, htripled, hproduct⟩ := SizeWord.exists_tripled? (a := size) (by omega)
    obtain ⟨larger, hlarger, hsum⟩ := SizeWord.exists_successor? (a := tripled) (by omega)
    refine ⟨if larger ≤ c.limitWord then larger else c.limitWord, ?_, ?_⟩
    · rw [htripled, Option.bind_eq_bind, Option.bind_some, hlarger]
      rfl
    split
    case isTrue hin =>
      have hvalue := UInt32.le_iff_toNat_le.1 hin
      omega
    case isFalse hout =>
      have hvalue := mt UInt32.le_iff_toNat_le.2 hout
      omega

theorem exists_nextBandwidthWord? (hmax : c.maxBurst < 2 ^ 30) {size : UInt32}
    (hsize : size ≤ c.limitWord) :
    ∃ larger, c.nextBandwidthWord? size = some larger ∧
      larger.toNat = c.nextBandwidthSize size.toNat := by
  have hle : size.toNat ≤ c.maxBurst := toNat_limitWord hmax ▸ UInt32.le_iff_toNat_le.1 hsize
  have hwords : UInt32.size = 4294967296 := rfl
  have hfar : c.natural ∨ 4 ≤ size ↔ c.natural ∨ 4 ≤ size.toNat := by
    rw [UInt32.le_iff_toNat_le]
    rfl
  simp only [nextBandwidthWord?, nextBandwidthSize, hfar, Nat.mul_comm _ size.toNat]
  split
  · exact SizeWord.exists_doubled? (by omega)
  · exact SizeWord.exists_successor? (by omega)

theorem exists_sweepLoop (hmax : c.maxBurst < 2 ^ 30) :
    ∃ sizes, SizeLoop c.nextSweepWord? c.limitWord 1 sizes ∧
      sizes.map UInt32.toNat = c.sweepSizes := by
  have hgrow : GrowsTo c.nextSweepSize c.limitWord.toNat := by
    rw [toNat_limitWord hmax]
    exact c.growsTo_nextSweepSize
  have hloop := hgrow.exists_sizeLoop (fun _ => exists_nextSweepWord? hmax)
    (by decide : 0 < (1 : UInt32).toNat) (Nat.lt_succ_self _)
  rwa [toNat_limitWord hmax] at hloop

theorem exists_bandwidthLoop (hmax : c.maxBurst < 2 ^ 30) :
    ∃ sizes, SizeLoop c.nextBandwidthWord? c.limitWord 1 sizes ∧
      sizes.map UInt32.toNat = c.bandwidthSizes := by
  have hgrow : GrowsTo c.nextBandwidthSize c.limitWord.toNat :=
    fun _ hpos _ => c.lt_nextBandwidthSize hpos
  have hloop := hgrow.exists_sizeLoop (fun _ => exists_nextBandwidthWord? hmax)
    (by decide : 0 < (1 : UInt32).toNat) (Nat.lt_succ_self _)
  rwa [toNat_limitWord hmax] at hloop

end Capabilities

structure Ascending (max : Nat) (sizes : List Nat) : Prop where
  increasing : sizes.Pairwise (· < ·)
  bounds : ∀ size ∈ sizes, 1 ≤ size ∧ size ≤ max
  empty_iff : sizes = [] ↔ max = 0

structure Tripling (max : Nat) (sizes : List Nat) : Prop where
  small : sizes.take 4 = List.range' 1 (min 4 max)
  later : ∀ i previous size, 3 ≤ i → sizes[i]? = some previous → sizes[i + 1]? = some size →
    size = min (3 * previous + 1) max
  last : 0 < max → sizes.getLast? = some max

theorem mem_doublings_iff {max n : Nat} :
    n ∈ sizesFrom (fun size => 2 * size) max max 1 ↔ n ≤ max ∧ ∃ k, n = 2 ^ k := by
  rw [mem_sizesFrom_iff (fun size hpos => by omega) Nat.one_pos (Nat.lt_succ_self max)]
  simp only [mul_left_iterate, Nat.mul_one]

namespace Capabilities

variable {c : Capabilities}

theorem nextSweepSize_natural (hnatural : c.natural = true) :
    c.nextSweepSize = fun size => 2 * size :=
  funext fun _ => if_pos hnatural

theorem nextBandwidthSize_natural (hnatural : c.natural = true) :
    c.nextBandwidthSize = fun size => 2 * size :=
  funext fun _ => if_pos (.inl hnatural)

theorem ascending_sweepSizes (c : Capabilities) : Ascending c.maxBurst c.sweepSizes where
  increasing := c.growsTo_nextSweepSize.pairwise Nat.one_pos
  bounds _ := mem_sweepSizes
  empty_iff := (sizesFrom_eq_nil_iff (Nat.lt_succ_self _)).trans Nat.lt_one_iff

theorem ascending_bandwidthSizes (c : Capabilities) :
    Ascending c.maxBurst c.bandwidthSizes where
  increasing := GrowsTo.pairwise (fun _ hpos _ => c.lt_nextBandwidthSize hpos) Nat.one_pos
  bounds _ := mem_bandwidthSizes
  empty_iff := (sizesFrom_eq_nil_iff (Nat.lt_succ_self _)).trans Nat.lt_one_iff

theorem nextSweepSize_any (hnatural : c.natural = false) (size : Nat) :
    c.nextSweepSize size =
      if size < 4 ∨ size = c.maxBurst then size + 1 else min (3 * size + 1) c.maxBurst := by
  rw [nextSweepSize, hnatural]
  rfl

theorem nextBandwidthSize_any (hnatural : c.natural = false) (size : Nat) :
    c.nextBandwidthSize size = if 4 ≤ size then 2 * size else size + 1 := by
  rw [nextBandwidthSize, hnatural]
  simp only [Bool.false_eq_true, false_or]

theorem take_sweepSizes (hnatural : c.natural = false) :
    c.sweepSizes.take 4 = List.range' 1 (min 4 c.maxBurst) := by
  have hsmall (size : Nat) (hsize : size < 4) : c.nextSweepSize size = size + 1 := by
    rw [nextSweepSize_any hnatural, if_pos (.inl hsize)]
  rcases hmax : c.maxBurst with _ | _ | _ | _ | m <;>
    simp [sweepSizes, hmax, sizesFrom, hsmall, List.range']

theorem tripling_sweepSizes (hnatural : c.natural = false) :
    Tripling c.maxBurst c.sweepSizes where
  small := take_sweepSizes hnatural
  later i previous size hi hprevious hsize := by
    have hbefore := eq_iterate_of_getElem?_sizesFrom hprevious
    have hafter := eq_iterate_of_getElem?_sizesFrom hsize
    rw [Function.iterate_succ_apply', ← hbefore] at hafter
    have hfour := c.growsTo_nextSweepSize.add_le Nat.one_pos hprevious
    have hle := (mem_sweepSizes (List.mem_of_getElem? hsize)).2
    have hlt := c.growsTo_nextSweepSize previous (by omega)
      (mem_sweepSizes (List.mem_of_getElem? hprevious)).2
    have hnear : ¬ (previous < 4 ∨ previous = c.maxBurst) := by omega
    rw [hafter, nextSweepSize_any hnatural, if_neg hnear]
  last hpos := by
    obtain ⟨last, hlast, hlastPos, hle, hend⟩ :=
      c.growsTo_nextSweepSize.exists_getLast? Nat.one_pos hpos (Nat.lt_succ_self _)
    rw [nextSweepSize_any hnatural] at hend
    have hmax : last = c.maxBurst := by
      split at hend <;> omega
    rw [← hmax]
    exact hlast

theorem iterate_nextBandwidthSize (c : Capabilities) (k : Nat) :
    c.nextBandwidthSize^[k] 4 = 2 ^ (k + 2) := by
  induction k with
  | zero => rfl
  | succ k ih =>
    have hfour : 4 ≤ 2 ^ (k + 2) := Nat.pow_le_pow_right Nat.two_pos (Nat.le_add_left 2 k)
    rw [Function.iterate_succ_apply', ih, nextBandwidthSize, if_pos (.inr hfour),
      Nat.pow_succ' (n := k + 2)]

theorem mem_bandwidthSizes_iff (hnatural : c.natural = false) {n : Nat} :
    n ∈ c.bandwidthSizes ↔
      n ≤ c.maxBurst ∧ (n = 1 ∨ n = 2 ∨ n = 3 ∨ ∃ k, 2 ≤ k ∧ n = 2 ^ k) := by
  have hsmall (size : Nat) (hsize : size < 4) : c.nextBandwidthSize size = size + 1 := by
    rw [nextBandwidthSize_any hnatural, if_neg (Nat.not_le_of_gt hsize)]
  have hfrom (k : Nat) : c.nextBandwidthSize^[k + 3] 1 = 2 ^ (k + 2) := by
    rw [Function.iterate_succ_apply, Function.iterate_succ_apply, Function.iterate_succ_apply,
      hsmall 1 (by decide), hsmall 2 (by decide), hsmall 3 (by decide), iterate_nextBandwidthSize]
  rw [bandwidthSizes, mem_sizesFrom_iff (fun _ => c.lt_nextBandwidthSize) Nat.one_pos
    (Nat.lt_succ_self _)]
  refine and_congr_right fun _ => ?_
  constructor
  · rintro ⟨k, rfl⟩
    match k with
    | 0 => exact .inl rfl
    | 1 => exact .inr (.inl (hsmall 1 (by decide)))
    | 2 =>
      refine .inr (.inr (.inl ?_))
      rw [Function.iterate_succ_apply', Function.iterate_one, hsmall 1 (by decide),
        hsmall 2 (by decide)]
    | k + 3 => exact .inr (.inr (.inr ⟨k + 2, Nat.le_add_left 2 k, hfrom k⟩))
  · rintro (rfl | rfl | rfl | ⟨k, hk, rfl⟩)
    · exact ⟨0, rfl⟩
    · exact ⟨1, (hsmall 1 (by decide)).symm⟩
    · refine ⟨2, ?_⟩
      rw [Function.iterate_succ_apply', Function.iterate_one, hsmall 1 (by decide),
        hsmall 2 (by decide)]
    · obtain ⟨k, rfl⟩ := Nat.exists_eq_add_of_le' hk
      exact ⟨k + 3, (hfrom k).symm⟩

/-- Up to a limit of 2^30, far above what a status word has room for, both loops end without losing
a bit. The sizes go up from one and stay within the limit. With natural bursts they are the powers
of two; else the sweep triples up to the limit itself, and the bandwidth test goes through every
size up to four and then the powers of two. -/
theorem burstSizes_cover (hmax : c.maxBurst < 2 ^ 30) :
    (∀ w, (ofWord w).maxBurst ≤ 0x7fff) ∧
      (∃ sizes, SizeLoop c.nextSweepWord? c.limitWord 1 sizes ∧
        sizes.map UInt32.toNat = c.sweepSizes) ∧
      (∃ sizes, SizeLoop c.nextBandwidthWord? c.limitWord 1 sizes ∧
        sizes.map UInt32.toNat = c.bandwidthSizes) ∧
      Ascending c.maxBurst c.sweepSizes ∧ Ascending c.maxBurst c.bandwidthSizes ∧
      (c.natural = true → ∀ n,
        (n ∈ c.sweepSizes ↔ n ≤ c.maxBurst ∧ ∃ k, n = 2 ^ k) ∧
          (n ∈ c.bandwidthSizes ↔ n ≤ c.maxBurst ∧ ∃ k, n = 2 ^ k)) ∧
      (c.natural = false →
        Tripling c.maxBurst c.sweepSizes ∧ ∀ n, n ∈ c.bandwidthSizes ↔
          n ≤ c.maxBurst ∧ (n = 1 ∨ n = 2 ∨ n = 3 ∨ ∃ k, 2 ≤ k ∧ n = 2 ^ k)) := by
  refine ⟨maxBurst_ofWord_le, exists_sweepLoop hmax, exists_bandwidthLoop hmax,
    c.ascending_sweepSizes, c.ascending_bandwidthSizes, ?_, ?_⟩
  · intro hnatural n
    rw [sweepSizes, nextSweepSize_natural hnatural, bandwidthSizes,
      nextBandwidthSize_natural hnatural]
    exact ⟨mem_doublings_iff, mem_doublings_iff⟩
  · intro hnatural
    exact ⟨tripling_sweepSizes hnatural, fun _ => mem_bandwidthSizes_iff hnatural⟩

def hundredBursts : Capabilities :=
  ⟨64, 100, false, true, true⟩

theorem burstSizes_cover_hundred :
    hundredBursts.maxBurst < 2 ^ 30 ∧ hundredBursts.natural = false ∧
      hundredBursts.sweepSizes = [1, 2, 3, 4, 13, 40, 100] ∧
      hundredBursts.bandwidthSizes = [1, 2, 3, 4, 8, 16, 32, 64] ∧
      (∃ sizes, SizeLoop hundredBursts.nextSweepWord? 100 1 sizes ∧
        sizes.map UInt32.toNat = hundredBursts.sweepSizes) ∧
      Tripling 100 hundredBursts.sweepSizes := by
  have hmax : hundredBursts.maxBurst < 2 ^ 30 := by decide
  obtain ⟨_, hloop, _, _, _, _, hany⟩ := burstSizes_cover hmax
  exact ⟨hmax, rfl, by decide, by decide, hloop, (hany rfl).1⟩

end Capabilities

end AfuBench
