import AfuBench.Proofs.AtomicEntries
import Mathlib.Algebra.Group.Nat.Defs

namespace AfuBench.Atomic

theorem Width.toNat_and_mask (w : Width) (v : UInt64) :
    (v &&& w.mask).toNat = v.toNat % 2 ^ w.bits := by
  apply Nat.eq_of_testBit_eq
  intro b
  rw [Word.testBit_toNat, Word.bit_and, w.bit_mask, Nat.testBit_mod_two_pow, Word.testBit_toNat,
    Bool.and_comm]

def contents (w : Width) (buf : List UInt64) : List UInt64 :=
  (List.range (w.perWord * buf.length)).map (entry w buf)

variable {w : Width} {buf : List UInt64} {i j : Nat}

theorem length_contents (w : Width) (buf : List UInt64) :
    (contents w buf).length = w.perWord * buf.length := by
  rw [contents, List.length_map, List.length_range]

theorem getElem?_contents (w : Width) (buf : List UInt64) (i : Nat) :
    (contents w buf)[i]? = if i < w.perWord * buf.length then some (entry w buf i) else none := by
  rw [contents, List.getElem?_map]
  split
  · rw [List.getElem?_range ‹_›, Option.map_some]
  · rw [List.getElem?_eq_none (by rw [List.length_range]; omega), Option.map_none]

theorem contents_injective (w : Width) : Function.Injective (contents w) := by
  intro xs ys h
  have hlen : xs.length = ys.length := by
    have hlength := congrArg List.length h
    rw [length_contents, length_contents] at hlength
    exact Nat.eq_of_mul_eq_mul_left w.perWord_pos hlength
  apply buffer_ext (w := w) hlen
  intro i hi
  have hentry := congrArg (·[i]?) h
  simpa only [getElem?_contents, if_pos hi, if_pos (hlen ▸ hi), Option.some.injEq] using hentry

theorem contents_setEntry (w : Width) (buf : List UInt64) (i : Nat) (v : UInt64) :
    contents w (setEntry w buf i v) = (contents w buf).set i (v &&& w.mask) := by
  apply List.ext_getElem?
  intro k
  rw [List.getElem?_set, length_contents, getElem?_contents, getElem?_contents, length_setEntry]
  by_cases hsame : i = k
  · subst hsame
    rw [if_pos rfl]
    split
    · rw [entry_setEntry_self (Width.wordOf_lt ‹_›)]
    · rfl
  · rw [if_neg hsame, entry_setEntry_of_ne hsame]

theorem entry_and_mask (w : Width) (buf : List UInt64) (i : Nat) :
    entry w buf i &&& w.mask = entry w buf i := by
  rw [entry, UInt64.and_assoc, UInt64.and_self]

theorem setEntry_entry (w : Width) (buf : List UInt64) (i : Nat) :
    setEntry w buf i (entry w buf i) = buf := by
  apply contents_injective w
  rw [contents_setEntry, entry_and_mask]
  apply List.ext_getElem?
  intro k
  rw [List.getElem?_set, length_contents]
  split
  · subst ‹i = k›
    rw [getElem?_contents]
  · rfl

theorem setEntry_setEntry (w : Width) (buf : List UInt64) (i : Nat) (u v : UInt64) :
    setEntry w (setEntry w buf i u) i v = setEntry w buf i v := by
  apply contents_injective w
  rw [contents_setEntry, contents_setEntry, contents_setEntry, List.set_set]

theorem setEntry_comm (w : Width) (buf : List UInt64) {i j : Nat} (hne : i ≠ j) (u v : UInt64) :
    setEntry w (setEntry w buf i u) j v = setEntry w (setEntry w buf j v) i u := by
  apply contents_injective w
  rw [contents_setEntry, contents_setEntry, contents_setEntry, contents_setEntry,
    List.set_comm _ _ hne]

theorem entry?_setEntry_of_ne (hne : i ≠ j) (v : UInt64) :
    entry? w (setEntry w buf i v) j = entry? w buf j := by
  unfold entry?
  rw [inBounds, inBounds, length_setEntry, entry_setEntry_of_ne hne]

theorem setEntry?_setEntry (w : Width) (buf : List UInt64) (i : Nat) (u v : UInt64) :
    setEntry? w (setEntry w buf i u) i v = setEntry? w buf i v := by
  unfold setEntry?
  rw [inBounds, inBounds, length_setEntry, setEntry_setEntry]

theorem getElem?_setEntry_of_ne {k : Nat} (hne : k ≠ w.wordOf i) (v : UInt64) :
    (setEntry w buf i v)[k]? = buf[k]? := by
  rw [setEntry, List.getElem?_modify_ne _ _ hne.symm]

structure EntrySet (w : Width) (buf : List UInt64) (i : Nat) (v : UInt64) (after : List UInt64) :
    Prop where
  length : after.length = buf.length
  entry : ∃ x, entry? w after i = .ok x ∧ x.toNat = v.toNat % 2 ^ w.bits
  others : ∀ j, j ≠ i → entry? w after j = entry? w buf j
  words : ∀ k, k ≠ w.wordOf i → after[k]? = buf[k]?
  again : ∀ u, setEntry? w after i u = setEntry? w buf i u

theorem entrySet_setEntry (hi : w.wordOf i < buf.length) (v : UInt64) :
    EntrySet w buf i v (setEntry w buf i v) where
  length := length_setEntry w buf i v
  entry := by
    refine ⟨v &&& w.mask, ?_, w.toNat_and_mask v⟩
    rw [entry?_eq (by rwa [length_setEntry]), entry_setEntry_self hi]
  others _ hj := entry?_setEntry_of_ne hj.symm v
  words _ hk := getElem?_setEntry_of_ne hk v
  again u := setEntry?_setEntry w buf i v u

theorem entry_laws (w : Width) (buf : List UInt64) :
    (∀ i, w.wordOf i < buf.length →
      (∀ v, ∃ after, setEntry? w buf i v = .ok after ∧ EntrySet w buf i v after) ∧
        (∃ x, entry? w buf i = .ok x ∧ setEntry? w buf i x = .ok buf) ∧
        ∀ j, w.wordOf j < buf.length → j ≠ i → ∀ u v, ∃ both,
          setEntry? w buf i u >>= (fun buf => setEntry? w buf j v) = .ok both ∧
            setEntry? w buf j v >>= (fun buf => setEntry? w buf i u) = .ok both) ∧
      ∀ other : List UInt64, other.length = buf.length →
        (other = buf ↔ ∀ i, w.wordOf i < buf.length → entry? w other i = entry? w buf i) := by
  refine ⟨?_, ?_⟩
  · intro i hi
    refine ⟨?_, ?_, ?_⟩
    · intro v
      exact ⟨_, setEntry?_eq hi v, entrySet_setEntry hi v⟩
    · refine ⟨_, entry?_eq hi, ?_⟩
      rw [setEntry?_eq hi, setEntry_entry]
    · intro j hj hne u v
      refine ⟨setEntry w (setEntry w buf i u) j v, ?_, ?_⟩
      · rw [setEntry?_eq hi]
        exact setEntry?_eq (by rwa [length_setEntry]) v
      · rw [setEntry?_eq hj, setEntry_comm w buf hne.symm]
        exact setEntry?_eq (by rwa [length_setEntry]) u
  · intro other hlen
    constructor
    · rintro rfl _ _
      rfl
    · intro hsame
      apply buffer_ext (w := w) hlen
      intro i hi
      have hother := Width.wordOf_lt hi
      have hword : w.wordOf i < buf.length := hlen ▸ hother
      have hentry := hsame i hword
      rw [entry?_eq hother, entry?_eq hword] at hentry
      exact Except.ok.inj hentry

/-- The upper entry of a word is set to a value too wide for it, next to the lower one. -/
theorem entry_laws_upperHalf :
    Width.wordOf .bits32 1 < [0x1111222233334444, 0].length ∧
      ∃ after, setEntry? .bits32 [0x1111222233334444, 0] 1 0xdeadbeef00000005 = .ok after ∧
        after = [0x0000000533334444, 0] ∧ entry? .bits32 after 1 = .ok 5 ∧
        entry? .bits32 after 0 = .ok 0x33334444 ∧
        setEntry? .bits32 after 1 0x11112222 = .ok [0x1111222233334444, 0] := by
  have hi : Width.wordOf .bits32 1 < [(0x1111222233334444 : UInt64), 0].length := by decide
  obtain ⟨hset, _, _⟩ := (entry_laws .bits32 [0x1111222233334444, 0]).1 1 hi
  obtain ⟨after, hafter, hentry⟩ := hset 0xdeadbeef00000005
  obtain rfl : [0x0000000533334444, 0] = after := Except.ok.inj hafter
  refine ⟨hi, _, hafter, rfl, ?_, ?_, ?_⟩
  · obtain ⟨x, hx, hvalue⟩ := hentry.entry
    rw [hx, UInt64.toNat_inj.1 (hvalue.trans (by decide : _ = (5 : UInt64).toNat))]
  · exact hentry.others 0 (by decide)
  · exact hentry.again 0x11112222

end AfuBench.Atomic
