import AfuBench.Channel.Atomic
import AfuBench.Proofs.WordBits

namespace AfuBench.Atomic

namespace Width

theorem perWord_pos (w : Width) : 0 < w.perWord := by
  cases w <;> decide

def offset (w : Width) (i : Nat) : Nat :=
  i % w.perWord * 32

theorem shift_eq (w : Width) (i : Nat) : w.shift i = UInt64.ofNat (w.offset i) := rfl

theorem offset_add_bits_le (w : Width) (i : Nat) : w.offset i + w.bits ≤ 64 := by
  cases w <;> simp only [offset, perWord, bits] <;> omega

theorem offset_lt (w : Width) (i : Nat) : w.offset i < 64 := by
  cases w <;> simp only [offset, perWord] <;> omega

theorem offset_apart {w : Width} {i j : Nat} (hword : w.wordOf i = w.wordOf j) (hne : i ≠ j) :
    w.offset i + w.bits ≤ w.offset j ∨ w.offset j + w.bits ≤ w.offset i := by
  cases w <;> simp only [wordOf, offset, perWord, bits] at hword ⊢ <;> omega

theorem exists_offset (w : Width) (j : Nat) {b : Nat} (hb : b < 64) :
    ∃ i, w.wordOf i = j ∧ w.offset i ≤ b ∧ b < w.offset i + w.bits := by
  cases w with
  | bits32 =>
    refine ⟨2 * j + b / 32, ?_⟩
    simp only [wordOf, offset, perWord, bits]
    omega
  | bits64 =>
    refine ⟨j, ?_⟩
    simp only [wordOf, offset, perWord, bits]
    omega

theorem wordOf_lt {w : Width} {i words : Nat} (h : i < w.perWord * words) : w.wordOf i < words :=
  Nat.div_lt_of_lt_mul h

theorem lt_of_wordOf_lt {w : Width} {i words : Nat} (h : w.wordOf i < words) :
    i < w.perWord * words := by
  rw [Nat.mul_comm]
  exact (Nat.div_lt_iff_lt_mul w.perWord_pos).1 h

theorem bit_mask (w : Width) (b : Nat) : Word.bit w.mask b = decide (b < w.bits) := by
  cases w with
  | bits32 =>
    have hmask : Word.bit (mask bits32) b = (decide (b < 64) && decide (b < 32)) :=
      Word.bit_lowMask 32 b
    rw [hmask, ← Bool.decide_and, bits]
    exact decide_eq_decide.2 (by omega)
  | bits64 =>
    have hmask : Word.bit (mask bits64) b = (decide (b < 64) && decide (b < 64)) :=
      Word.bit_lowMask 64 b
    rw [hmask, Bool.and_self, bits]

end Width

variable {w : Width} {buf : List UInt64}

def field (w : Width) (i : Nat) (word : UInt64) : UInt64 :=
  word >>> w.shift i &&& w.mask

theorem entry_eq_field (w : Width) (buf : List UInt64) (i : Nat) :
    entry w buf i = field w i (buf.getD (w.wordOf i) 0) := rfl

theorem bit_field (w : Width) (i : Nat) (word : UInt64) (b : Nat) :
    Word.bit (field w i word) b = (Word.bit word (w.offset i + b) && decide (b < w.bits)) := by
  rw [field, Word.bit_and, Width.shift_eq, Word.bit_shiftRight word (w.offset_lt i), w.bit_mask]

theorem bit_putEntry (w : Width) (i : Nat) (value word : UInt64) {b : Nat} (hb : b < 64) :
    Word.bit (putEntry w i value word) b =
      if w.offset i ≤ b ∧ b < w.offset i + w.bits then Word.bit value (b - w.offset i)
      else Word.bit word b := by
  have hbits : b - w.offset i < w.bits ↔ b < w.offset i + w.bits ∨ b < w.offset i := by
    have := w.offset_add_bits_le i
    cases w <;> simp only [Width.bits] at * <;> omega
  rw [putEntry, Word.bit_or, Word.bit_and, Word.bit_not _ hb, Width.shift_eq,
    Word.bit_shiftLeft _ (w.offset_lt i), Word.bit_shiftLeft _ (w.offset_lt i), Word.bit_and,
    w.bit_mask, decide_eq_true hb]
  by_cases hlow : w.offset i ≤ b
  · by_cases hhigh : b < w.offset i + w.bits
    · simp [hlow, hhigh, hbits]
    · have hlt : ¬ b < w.offset i := Nat.not_lt.2 hlow
      simp [hlow, hhigh, hbits, hlt]
  · simp [hlow]

theorem field_putEntry_self (w : Width) (i : Nat) (value word : UInt64) :
    field w i (putEntry w i value word) = value &&& w.mask := by
  apply Word.eq_of_bit
  intro b _
  rw [bit_field, Word.bit_and, w.bit_mask]
  by_cases hb : b < w.bits
  · have := w.offset_add_bits_le i
    have hin : w.offset i ≤ w.offset i + b ∧ w.offset i + b < w.offset i + w.bits := by omega
    rw [bit_putEntry w i value word (by omega), if_pos hin, Nat.add_sub_cancel_left]
  · rw [decide_eq_false hb, Bool.and_false, Bool.and_false]

theorem field_putEntry_of_ne {i j : Nat} (hword : w.wordOf i = w.wordOf j) (hne : i ≠ j)
    (value word : UInt64) : field w j (putEntry w i value word) = field w j word := by
  apply Word.eq_of_bit
  intro b _
  rw [bit_field, bit_field]
  by_cases hb : b < w.bits
  · have := w.offset_add_bits_le j
    have hout : ¬ (w.offset i ≤ w.offset j + b ∧ w.offset j + b < w.offset i + w.bits) := by
      have := Width.offset_apart hword hne
      omega
    rw [bit_putEntry w i value word (by omega), if_neg hout]
  · rw [decide_eq_false hb, Bool.and_false, Bool.and_false]

theorem word_ext {w : Width} (j : Nat) {x y : UInt64}
    (h : ∀ i, w.wordOf i = j → field w i x = field w i y) : x = y := by
  apply Word.eq_of_bit
  intro b hb
  obtain ⟨i, hword, hlow, hhigh⟩ := w.exists_offset j hb
  have hbits : b - w.offset i < w.bits := by omega
  have hsame := congrArg (fun x => Word.bit x (b - w.offset i)) (h i hword)
  simpa only [bit_field, Nat.add_sub_cancel' hlow, decide_eq_true hbits, Bool.and_true] using hsame

theorem entry?_eq {i : Nat} (hi : w.wordOf i < buf.length) :
    entry? w buf i = .ok (entry w buf i) := by
  unfold entry?
  rw [inBounds, if_pos hi]
  rfl

theorem setEntry?_eq {i : Nat} (hi : w.wordOf i < buf.length) (value : UInt64) :
    setEntry? w buf i value = .ok (setEntry w buf i value) := by
  unfold setEntry?
  rw [inBounds, if_pos hi]
  rfl

theorem length_setEntry (w : Width) (buf : List UInt64) (i : Nat) (value : UInt64) :
    (setEntry w buf i value).length = buf.length := by
  rw [setEntry, List.length_modify]

theorem getD_setEntry_of_ne {i j : Nat} (hne : w.wordOf i ≠ j) (value : UInt64) :
    (setEntry w buf i value).getD j 0 = buf.getD j 0 := by
  rw [List.getD_eq_getElem?_getD, List.getD_eq_getElem?_getD, setEntry,
    List.getElem?_modify_ne _ _ hne]

theorem getD_setEntry_self {i : Nat} (hi : w.wordOf i < buf.length) (value : UInt64) :
    (setEntry w buf i value).getD (w.wordOf i) 0 =
      putEntry w i value (buf.getD (w.wordOf i) 0) := by
  rw [List.getD_eq_getElem?_getD, List.getD_eq_getElem?_getD, setEntry, List.getElem?_modify_eq,
    List.getElem?_eq_getElem hi]
  rfl

theorem entry_setEntry_self {i : Nat} (hi : w.wordOf i < buf.length) (value : UInt64) :
    entry w (setEntry w buf i value) i = value &&& w.mask := by
  rw [entry_eq_field, getD_setEntry_self hi, field_putEntry_self]

theorem entry_setEntry_of_ne {i j : Nat} (hne : i ≠ j) (value : UInt64) :
    entry w (setEntry w buf i value) j = entry w buf j := by
  rw [entry_eq_field, entry_eq_field]
  by_cases hword : w.wordOf i = w.wordOf j
  · by_cases hlt : w.wordOf i < buf.length
    · rw [← hword, getD_setEntry_self hlt, field_putEntry_of_ne hword hne]
    · rw [setEntry, List.modify_eq_self (Nat.le_of_not_lt hlt)]
  · rw [getD_setEntry_of_ne hword]

theorem buffer_ext {xs ys : List UInt64} (hlen : xs.length = ys.length)
    (h : ∀ i < w.perWord * xs.length, entry w xs i = entry w ys i) : xs = ys := by
  have hword (j : Nat) (hj : j < xs.length) : xs.getD j 0 = ys.getD j 0 := by
    apply word_ext (w := w) j
    rintro i rfl
    exact h i (Width.lt_of_wordOf_lt hj)
  apply List.ext_getElem hlen
  intro j hx hy
  have hsame := hword j hx
  rwa [List.getD_eq_getElem?_getD, List.getD_eq_getElem?_getD, List.getElem?_eq_getElem hx,
    List.getElem?_eq_getElem hy] at hsame

theorem field_of_offset_zero {i : Nat} (h : w.offset i = 0) (word : UInt64) :
    field w i word = word &&& w.mask := by
  apply Word.eq_of_bit
  intro b _
  rw [bit_field, h, Nat.zero_add, Word.bit_and, w.bit_mask]

theorem field_packWord (w : Width) (value : Nat → UInt64) (i : Nat) :
    field w i (packWord w value (w.perWord * w.wordOf i)) = value i &&& w.mask := by
  cases w with
  | bits64 =>
    have hi : Width.perWord .bits64 * Width.wordOf .bits64 i = i := by
      simp only [Width.perWord, Width.wordOf]
      omega
    have hoffset : Width.offset .bits64 i = 0 := by
      simp only [Width.offset, Width.perWord]
      omega
    rw [hi, packWord, field_of_offset_zero hoffset]
  | bits32 =>
    rcases Nat.mod_two_eq_zero_or_one i with heven | hodd
    · have hi : Width.perWord .bits32 * Width.wordOf .bits32 i = i := by
        simp only [Width.perWord, Width.wordOf]
        omega
      have hoffset : Width.offset .bits32 i = 0 := by
        simp only [Width.offset, Width.perWord]
        omega
      have hword : Width.wordOf .bits32 (i + 1) = Width.wordOf .bits32 i := by
        simp only [Width.wordOf, Width.perWord]
        omega
      rw [hi, packWord, field_putEntry_of_ne hword (by omega), field_of_offset_zero hoffset,
        UInt64.and_assoc, UInt64.and_self]
    · have hi : Width.perWord .bits32 * Width.wordOf .bits32 i + 1 = i := by
        simp only [Width.perWord, Width.wordOf]
        omega
      rw [packWord, hi, field_putEntry_self]

theorem length_build (w : Width) (value : Nat → UInt64) : (build w value).length = bufferWords := by
  rw [build, List.length_map, List.length_range]

theorem entry_build (w : Width) (value : Nat → UInt64) {i : Nat} (hi : i < w.entries) :
    entry w (build w value) i = value i &&& w.mask := by
  have hword := Width.wordOf_lt hi
  rw [entry_eq_field, build, List.getD_eq_getElem?_getD, List.getElem?_map,
    List.getElem?_range hword, Option.map_some, Option.getD_some, field_packWord]

theorem entry_replicate_zero (w : Width) (words i : Nat) :
    entry w (List.replicate words 0) i = 0 := by
  have hword : (List.replicate words (0 : UInt64)).getD (w.wordOf i) 0 = 0 := by
    rw [List.getD_eq_getElem?_getD, List.getElem?_replicate]
    split <;> rfl
  apply Word.eq_of_bit
  intro b _
  rw [entry_eq_field, hword, bit_field, Word.bit_zero, Word.bit_zero, Bool.false_and]

def fill (w : Width) (value : Nat → UInt64) (n : Nat) (buf : List UInt64) : List UInt64 :=
  (List.range n).foldl (fun buf i => setEntry w buf i (value i)) buf

theorem fill_succ (w : Width) (value : Nat → UInt64) (n : Nat) (buf : List UInt64) :
    fill w value (n + 1) buf = setEntry w (fill w value n buf) n (value n) := by
  rw [fill, List.range_succ, List.foldl_append]
  rfl

theorem length_fill (w : Width) (value : Nat → UInt64) (n : Nat) (buf : List UInt64) :
    (fill w value n buf).length = buf.length := by
  induction n with
  | zero => rfl
  | succ n ih => rw [fill_succ, length_setEntry, ih]

theorem entry_fill (value : Nat → UInt64) {n i : Nat} (hi : i < n) (hword : w.wordOf i < buf.length) :
    entry w (fill w value n buf) i = value i &&& w.mask := by
  induction n with
  | zero => exact absurd hi (Nat.not_lt_zero i)
  | succ n ih =>
    rw [fill_succ]
    rcases Nat.eq_or_lt_of_le (Nat.lt_succ_iff.1 hi) with rfl | hlt
    · exact entry_setEntry_self (by rwa [length_fill]) (value i)
    · rw [entry_setEntry_of_ne (Nat.ne_of_gt hlt), ih hlt]

theorem build_eq_fill (w : Width) (value : Nat → UInt64) :
    build w value = fill w value w.entries (List.replicate bufferWords 0) := by
  have hfull : (List.replicate bufferWords (0 : UInt64)).length = bufferWords :=
    List.length_replicate
  apply buffer_ext (w := w) (by rw [length_build, length_fill, hfull])
  intro i hi
  rw [length_build] at hi
  have hentry : i < w.entries := hi
  have hword : w.wordOf i < (List.replicate bufferWords (0 : UInt64)).length := by
    rw [hfull]
    exact Width.wordOf_lt hi
  rw [entry_build w value hentry, entry_fill value hentry hword]

end AfuBench.Atomic
