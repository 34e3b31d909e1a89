import AfuBench.Proofs.AtomicEntries

namespace AfuBench.Atomic

namespace Width

def Fits (w : Width) (v : UInt64) : Prop :=
  v &&& w.mask = v

theorem fits_and_mask (w : Width) (v : UInt64) : w.Fits (v &&& w.mask) := by
  rw [Fits, UInt64.and_assoc, UInt64.and_self]

theorem fits_mask (w : Width) : w.Fits w.mask := UInt64.and_self

theorem fits_zero (w : Width) : w.Fits 0 := UInt64.zero_and

theorem fits_tag (w : Width) (i : Nat) : w.Fits (tag i) := by
  have hmask : 0x1ff &&& w.mask = 0x1ff := by
    cases w <;> decide
  rw [Fits, tag, UInt64.and_assoc, hmask]

theorem fits_initialValue (w : Width) (i : Nat) : w.Fits (initialValue w i) := by
  rw [initialValue]
  split
  · exact w.fits_tag i
  · exact w.fits_mask

theorem fits_updated {w : Width} {old : UInt64} (hold : w.Fits old) (i : Nat) :
    w.Fits (updated w i old) := by
  have hmatch : w.Fits matchValue := by
    change matchValue &&& w.mask = matchValue
    cases w <;> decide
  rw [updated]
  cases operation i with
  | fetchAdd => exact w.fits_and_mask _
  | swap => exact w.fits_tag i
  | compareSwap =>
    by_cases hfound : old = tag i
    · simpa only [if_pos hfound] using hmatch
    · simpa only [if_neg hfound] using hold

theorem fits_expectedValue (w : Width) (updates i : Nat) : w.Fits (expectedValue w updates i) := by
  rw [expectedValue]
  split
  · exact fits_updated (w.fits_initialValue i) i
  · exact w.fits_initialValue i

theorem fits_returnedValue (w : Width) (updates i : Nat) : w.Fits (returnedValue w updates i) := by
  rw [returnedValue]
  split
  · exact w.fits_initialValue i
  · exact w.fits_zero

end Width

theorem tag_ne_zero {i : Nat} (hodd : i % 2 = 1) : tag i ≠ 0 := by
  intro hzero
  have hlow : Word.bit (tag i) 0 = true := by
    have hsum : (0x100 + i) % 2 = 1 := by omega
    have hbit : (0x100 + i).testBit 0 = true := by
      rw [Nat.testBit_zero, hsum, decide_eq_true rfl]
    rw [tag, Word.bit_and, Word.bit_ofNat, hbit]
    decide
  rw [hzero, Word.bit_zero] at hlow
  cases hlow

theorem initialValue_ne_zero (w : Width) (i : Nat) : initialValue w i ≠ 0 := by
  rw [initialValue]
  split
  · rename_i hmatches
    exact tag_ne_zero hmatches.2
  · cases w <;> decide

variable {w : Width}

theorem entry_build_of_fits {value : Nat → UInt64} (hfits : ∀ i, w.Fits (value i)) {i : Nat}
    (hi : i < w.entries) : entry w (build w value) i = value i := by
  rw [entry_build w value hi]
  exact hfits i

theorem entry_take {buf : List UInt64} {words i : Nat} (hi : w.wordOf i < words) :
    entry w (buf.take words) i = entry w buf i := by
  rw [entry_eq_field, entry_eq_field, List.getD_eq_getElem?_getD, List.getD_eq_getElem?_getD,
    List.getElem?_take_of_lt hi]

theorem take_eq_build_iff {value : Nat → UInt64} (hfits : ∀ i, w.Fits (value i))
    {buf : List UInt64} (hfull : bufferWords ≤ buf.length) :
    buf.take bufferWords = build w value ↔ ∀ i < w.entries, entry w buf i = value i := by
  constructor
  · intro hsame i hi
    rw [← entry_take (Width.wordOf_lt hi), hsame, entry_build_of_fits hfits hi]
  · intro hsame
    have hlen : (buf.take bufferWords).length = bufferWords := by
      rw [List.length_take, Nat.min_eq_left hfull]
    apply buffer_ext (w := w) (by rw [hlen, length_build])
    intro i hi
    rw [hlen] at hi
    rw [entry_take (Width.wordOf_lt hi), hsame i hi, entry_build_of_fits hfits hi]

theorem requireUpdates_of_le {updates : Nat} (h : updates ≤ w.entries) :
    requireUpdates w updates = .ok () :=
  if_neg (Nat.not_lt.2 h)

theorem expectedBuffer_eq {updates : Nat} (h : updates ≤ w.entries) :
    expectedBuffer w updates = .ok (build w (expectedValue w updates)) := by
  rw [expectedBuffer, requireUpdates_of_le h]
  rfl

theorem returnedBuffer_eq {updates : Nat} (h : updates ≤ w.entries) :
    returnedBuffer w updates = .ok (build w (returnedValue w updates)) := by
  rw [returnedBuffer, requireUpdates_of_le h]
  rfl

section

variable {atomic writeBack : List UInt64} {updates : Nat}

def differences (w : Width) (atomic writeBack : List UInt64) (updates : Nat) : List Mismatch :=
  (List.range w.entries).flatMap fun i =>
    compareEntry w .atomic atomic i (expectedValue w updates i) ++
      compareEntry w .writeBack writeBack i (returnedValue w updates i)

theorem check_eq (w : Width) (atomic writeBack : List UInt64) (updates : Nat) :
    check w atomic writeBack updates =
      if w.entries < updates then .error (.updateCount updates w.entries)
      else if atomic.length < bufferWords then .error (.shortBuffer bufferWords atomic.length)
      else if writeBack.length < bufferWords then
        .error (.shortBuffer bufferWords writeBack.length)
      else .ok (differences w atomic writeBack updates) := by
  simp only [check, requireUpdates, requireFull]
  split
  · rfl
  · split
    · rfl
    · split <;> rfl

theorem check_eq_ok_iff {found : List Mismatch} :
    check w atomic writeBack updates = .ok found ↔
      updates ≤ w.entries ∧ bufferWords ≤ atomic.length ∧ bufferWords ≤ writeBack.length ∧
        found = differences w atomic writeBack updates := by
  rw [check_eq]
  by_cases hcount : w.entries < updates
  · simp [hcount, Nat.not_le.2 hcount]
  · by_cases hatomic : atomic.length < bufferWords
    · simp [hcount, hatomic, Nat.not_le.2 hatomic]
    · by_cases hback : writeBack.length < bufferWords
      · simp [hcount, hatomic, hback, Nat.not_le.2 hback]
      · simp [hcount, hatomic, hback, Nat.not_lt.1 hcount, Nat.not_lt.1 hatomic,
          Nat.not_lt.1 hback, eq_comm]

theorem check_eq_updateCount_iff :
    check w atomic writeBack updates = .error (.updateCount updates w.entries) ↔
      w.entries < updates := by
  rw [check_eq]
  by_cases hcount : w.entries < updates
  · simp [hcount]
  · rw [if_neg hcount]
    split
    · simp [hcount]
    · split <;> simp [hcount]

theorem check_eq_shortBuffer_iff {held : Nat} :
    check w atomic writeBack updates = .error (.shortBuffer bufferWords held) ↔
      updates ≤ w.entries ∧
        (atomic.length < bufferWords ∧ held = atomic.length ∨
          bufferWords ≤ atomic.length ∧ writeBack.length < bufferWords ∧
            held = writeBack.length) := by
  rw [check_eq]
  by_cases hcount : w.entries < updates
  · simp [hcount, Nat.not_le.2 hcount]
  · by_cases hatomic : atomic.length < bufferWords
    · simp [hcount, hatomic, Nat.not_lt.1 hcount, Nat.not_le.2 hatomic, eq_comm]
    · by_cases hback : writeBack.length < bufferWords
      · simp [hcount, hatomic, hback, Nat.not_lt.1 hcount, Nat.not_lt.1 hatomic, eq_comm]
      · simp [hcount, hatomic, hback]

def Side.pick {α : Type} (side : Side) (atomic writeBack : α) : α :=
  match side with
  | .atomic => atomic
  | .writeBack => writeBack

theorem mem_compareEntry {side : Side} {buf : List UInt64} {i : Nat} {expected : UInt64}
    {m : Mismatch} :
    m ∈ compareEntry w side buf i expected ↔
      m = ⟨side, i, entry w buf i, expected⟩ ∧ entry w buf i ≠ expected := by
  rw [compareEntry]
  by_cases hsame : entry w buf i = expected
  · simp [hsame]
  · simp [hsame]

theorem mem_differences {m : Mismatch} :
    m ∈ differences w atomic writeBack updates ↔
      m.index < w.entries ∧ m.actual = entry w (m.side.pick atomic writeBack) m.index ∧
        m.expected = m.side.pick (expectedValue w updates) (returnedValue w updates) m.index ∧
        m.actual ≠ m.expected := by
  simp only [differences, List.mem_flatMap, List.mem_range, List.mem_append, mem_compareEntry]
  constructor
  · rintro ⟨i, hi, ⟨rfl, hne⟩ | ⟨rfl, hne⟩⟩
    · exact ⟨hi, rfl, rfl, hne⟩
    · exact ⟨hi, rfl, rfl, hne⟩
  · obtain ⟨side, i, actual, expected⟩ := m
    rintro ⟨hi, hactual, hexpected, hne⟩
    dsimp only at hi hactual hexpected hne
    subst hactual hexpected
    cases side with
    | atomic => exact ⟨i, hi, .inl ⟨rfl, hne⟩⟩
    | writeBack => exact ⟨i, hi, .inr ⟨rfl, hne⟩⟩

def Mismatch.Before (m n : Mismatch) : Prop :=
  m.index < n.index ∨ m.index = n.index ∧ m.side = .atomic ∧ n.side = .writeBack

theorem Mismatch.Before.ne {m n : Mismatch} (h : m.Before n) : m ≠ n := by
  rintro rfl
  rcases h with hlt | ⟨_, hatomic, hback⟩
  · exact Nat.lt_irrefl _ hlt
  · rw [hatomic] at hback
    cases hback

theorem pairwise_compareEntry (side : Side) (buf : List UInt64) (i : Nat) (expected : UInt64) :
    (compareEntry w side buf i expected).Pairwise Mismatch.Before := by
  rw [compareEntry]
  split
  · exact .nil
  · exact List.pairwise_singleton _ _

theorem pairwise_differences :
    (differences w atomic writeBack updates).Pairwise Mismatch.Before := by
  rw [differences, List.pairwise_flatMap]
  refine ⟨?_, ?_⟩
  · intro i _
    refine List.pairwise_append.2
      ⟨pairwise_compareEntry _ _ _ _, pairwise_compareEntry _ _ _ _, ?_⟩
    intro m hm n hn
    obtain ⟨rfl, _⟩ := mem_compareEntry.1 hm
    obtain ⟨rfl, _⟩ := mem_compareEntry.1 hn
    exact .inr ⟨rfl, rfl, rfl⟩
  · refine List.pairwise_lt_range.imp ?_
    intro i j hij m hm n hn
    have hindex {k : Nat} {a b : UInt64} {p : Mismatch}
        (hp : p ∈ compareEntry w .atomic atomic k a ++ compareEntry w .writeBack writeBack k b) :
        p.index = k := by
      rcases List.mem_append.1 hp with hp | hp
      · rw [(mem_compareEntry.1 hp).1]
      · rw [(mem_compareEntry.1 hp).1]
    left
    rw [hindex hm, hindex hn]
    exact hij

theorem differences_eq_nil_iff :
    differences w atomic writeBack updates = [] ↔
      (∀ i < w.entries, entry w atomic i = expectedValue w updates i) ∧
        ∀ i < w.entries, entry w writeBack i = returnedValue w updates i := by
  rw [List.eq_nil_iff_forall_not_mem]
  constructor
  · intro hnone
    refine ⟨fun i hi => ?_, fun i hi => ?_⟩
    · exact Decidable.byContradiction fun hne =>
        hnone ⟨.atomic, i, _, _⟩ (mem_differences.2 ⟨hi, rfl, rfl, hne⟩)
    · exact Decidable.byContradiction fun hne =>
        hnone ⟨.writeBack, i, _, _⟩ (mem_differences.2 ⟨hi, rfl, rfl, hne⟩)
  · rintro ⟨hatomic, hback⟩ ⟨side, i, actual, expected⟩ hm
    obtain ⟨hi, hactual, hexpected, hne⟩ := mem_differences.1 hm
    apply hne
    rw [hactual, hexpected]
    cases side with
    | atomic => exact hatomic i hi
    | writeBack => exact hback i hi

theorem differences_congr {a b : List UInt64} (ha : a.take bufferWords = atomic.take bufferWords)
    (hb : b.take bufferWords = writeBack.take bufferWords) :
    differences w a b updates = differences w atomic writeBack updates := by
  have hentry {xs ys : List UInt64} (h : xs.take bufferWords = ys.take bufferWords) {i : Nat}
      (hi : i < w.entries) : entry w xs i = entry w ys i := by
    rw [← entry_take (Width.wordOf_lt hi), h, entry_take (Width.wordOf_lt hi)]
  rw [differences, differences, List.flatMap_def, List.flatMap_def]
  congr 1
  apply List.map_congr_left
  intro i hi
  rw [List.mem_range] at hi
  rw [compareEntry, compareEntry, compareEntry, compareEntry, hentry ha hi, hentry hb hi]

theorem check_of_take {found : List Mismatch} (h : check w atomic writeBack updates = .ok found)
    {a b : List UInt64} (ha : a.take bufferWords = atomic.take bufferWords)
    (hb : b.take bufferWords = writeBack.take bufferWords) : check w a b updates = .ok found := by
  obtain ⟨hcount, hatomic, hback, rfl⟩ := check_eq_ok_iff.1 h
  have hfull {xs ys : List UInt64} (htake : xs.take bufferWords = ys.take bufferWords)
      (hys : bufferWords ≤ ys.length) : bufferWords ≤ xs.length := by
    have hlen := congrArg List.length htake
    rw [List.length_take, List.length_take] at hlen
    omega
  exact check_eq_ok_iff.2
    ⟨hcount, hfull ha hatomic, hfull hb hback, (differences_congr ha hb).symm⟩

end

theorem not_lt_of_accepted {atomic writeBack : List UInt64} {m n : Nat} (hn : n ≤ w.entries)
    (hm : differences w atomic writeBack m = []) (hn' : differences w atomic writeBack n = []) :
    ¬ m < n := by
  intro hlt
  have hi : m < w.entries := Nat.lt_of_lt_of_le hlt hn
  have hzero := (differences_eq_nil_iff.1 hm).2 m hi
  have hwritten := (differences_eq_nil_iff.1 hn').2 m hi
  rw [returnedValue, if_neg (Nat.lt_irrefl m)] at hzero
  rw [returnedValue, if_pos hlt] at hwritten
  exact initialValue_ne_zero w m (hwritten.symm.trans hzero)

theorem updates_eq_of_accepted {atomic writeBack : List UInt64} {updates other : Nat}
    (h : check w atomic writeBack updates = .ok [])
    (hother : check w atomic writeBack other = .ok []) : other = updates := by
  obtain ⟨hcount, _, _, hnone⟩ := check_eq_ok_iff.1 h
  obtain ⟨hcount', _, _, hnone'⟩ := check_eq_ok_iff.1 hother
  have hle := not_lt_of_accepted hcount hnone'.symm hnone.symm
  have hge := not_lt_of_accepted hcount' hnone.symm hnone'.symm
  omega

/-- The check refuses too many updates, then a short buffer, the updated one first. Otherwise it
reports in order exactly the entries that differ from those of the buffers a run should leave, with
what was found and what was expected there. So it looks at the first `bufferWords` words alone, and
accepts two buffers for one number of updates at most. -/
theorem check_report (w : Width) (atomic writeBack : List UInt64) (updates : Nat) :
    (check w atomic writeBack updates = .error (.updateCount updates w.entries) ↔
        w.entries < updates) ∧
      (∀ held, check w atomic writeBack updates = .error (.shortBuffer bufferWords held) ↔
        updates ≤ w.entries ∧
          (atomic.length < bufferWords ∧ held = atomic.length ∨
            bufferWords ≤ atomic.length ∧ writeBack.length < bufferWords ∧
              held = writeBack.length)) ∧
      (updates ≤ w.entries → bufferWords ≤ atomic.length → bufferWords ≤ writeBack.length →
        ∃ expected returned found, expectedBuffer w updates = .ok expected ∧
          returnedBuffer w updates = .ok returned ∧
          check w atomic writeBack updates = .ok found ∧
          found.Nodup ∧ found.Pairwise Mismatch.Before ∧
          (∀ m, m ∈ found ↔ m.index < w.entries ∧
            m.actual = entry w (m.side.pick atomic writeBack) m.index ∧
            m.expected = entry w (m.side.pick expected returned) m.index ∧
            m.actual ≠ m.expected) ∧
          (found = [] ↔ atomic.take bufferWords = expected ∧
            writeBack.take bufferWords = returned) ∧
          ∀ a b, a.take bufferWords = atomic.take bufferWords →
            b.take bufferWords = writeBack.take bufferWords → check w a b updates = .ok found) ∧
      ∀ other, check w atomic writeBack updates = .ok [] →
        check w atomic writeBack other = .ok [] → other = updates := by
  refine ⟨check_eq_updateCount_iff, fun held => check_eq_shortBuffer_iff, ?_,
    fun other => updates_eq_of_accepted⟩
  intro hcount hatomic hback
  have hexpected := w.fits_expectedValue updates
  have hreturned := w.fits_returnedValue updates
  have hfound := check_eq_ok_iff.2 ⟨hcount, hatomic, hback, rfl⟩
  refine ⟨_, _, differences w atomic writeBack updates, expectedBuffer_eq hcount,
    returnedBuffer_eq hcount, hfound, pairwise_differences.imp Mismatch.Before.ne,
    pairwise_differences, ?_, ?_, fun a b ha hb => check_of_take hfound ha hb⟩
  · intro m
    rw [mem_differences]
    refine and_congr_right fun hi => ?_
    cases hside : m.side with
    | atomic => simp only [Side.pick, entry_build_of_fits hexpected hi]
    | writeBack => simp only [Side.pick, entry_build_of_fits hreturned hi]
  · rw [differences_eq_nil_iff, take_eq_build_iff hexpected hatomic,
      take_eq_build_iff hreturned hback]

def strayBuffer : List UInt64 :=
  setEntry .bits32 (build .bits32 (returnedValue .bits32 10)) 11 1

theorem check_report_stray_entry :
    (∃ expected found, expectedBuffer .bits32 10 = .ok expected ∧
        check .bits32 expected strayBuffer 10 = .ok found ∧
          found.Nodup ∧ ∀ m, m ∈ found ↔ m = ⟨.writeBack, 11, 1, 0⟩) ∧
      check .bits64 (List.replicate 8 0) [] 1 = .error (.shortBuffer 512 8) ∧
      check .bits64 [] [] 513 = .error (.updateCount 513 512) := by
  have hcount : 10 ≤ Width.entries .bits32 := by decide
  have hzero : entry .bits32 (build .bits32 (returnedValue .bits32 10)) 11 = 0 := by
    rw [entry_build_of_fits (Width.fits_returnedValue .bits32 10) (by decide)]
    rfl
  have hstray : entry .bits32 strayBuffer 11 = 1 := by
    rw [strayBuffer, entry_setEntry_self (by rw [length_build]; decide)]
    decide
  have hsame (i : Nat) (hi : 11 ≠ i) :
      entry .bits32 strayBuffer i = entry .bits32 (build .bits32 (returnedValue .bits32 10)) i :=
    entry_setEntry_of_ne hi 1
  have hatomic := length_build .bits32 (expectedValue .bits32 10)
  have hback : strayBuffer.length = bufferWords := by
    rw [strayBuffer, length_setEntry, length_build]
  refine ⟨?_, ((check_report .bits64 _ [] 1).2.1 8).2 ⟨by decide, .inl ⟨by decide, rfl⟩⟩,
    (check_report .bits64 [] [] 513).1.2 (by decide)⟩
  have hexpected := expectedBuffer_eq hcount
  have hreturned := returnedBuffer_eq hcount
  generalize build .bits32 (expectedValue .bits32 10) = expected at *
  generalize build .bits32 (returnedValue .bits32 10) = returned at *
  generalize strayBuffer = stray at *
  obtain ⟨_, _, hreport, _⟩ := check_report .bits32 expected stray 10
  obtain ⟨_, _, found, hexpected', hreturned', hfound, hnodup, _, hmem, _⟩ :=
    hreport hcount (Nat.le_of_eq hatomic.symm) (Nat.le_of_eq hback.symm)
  rw [hexpected, Except.ok.injEq] at hexpected'
  rw [hreturned, Except.ok.injEq] at hreturned'
  subst hexpected' hreturned'
  refine ⟨expected, found, hexpected, hfound, hnodup, ?_⟩
  rintro ⟨side, i, actual, wanted⟩
  rw [hmem]
  constructor
  · rintro ⟨_, hactual, hwanted, hne⟩
    dsimp only at hactual hwanted hne
    subst hactual hwanted
    cases side with
    | atomic => exact absurd rfl hne
    | writeBack =>
      have hi : 11 = i := Decidable.byContradiction fun hother => hne (hsame i hother)
      subst hi
      simp only [Side.pick, hstray, hzero]
  · intro hm
    cases hm
    exact ⟨by decide, hstray.symm, hzero.symm, by decide⟩

end AfuBench.Atomic
