import AfuBench.Channel.Line
import AfuBench.Proofs.DumpCodec

namespace AfuBench

namespace Blocks

variable {α : Type}

theorem getElem?_whole {size : Nat} (hsize : 0 < size) (xs : List α) {i : Nat}
    (hi : size * (i + 1) ≤ xs.length) :
    (whole size xs)[i]? = some ((xs.drop (size * i)).take size) := by
  have hlt : i < xs.length / size := by
    rw [Nat.lt_iff_add_one_le, Nat.le_div_iff_mul_le hsize, Nat.mul_comm]
    exact hi
  exact getElem?_cut size _ xs hlt

theorem length_whole (size : Nat) (xs : List α) : (whole size xs).length = xs.length / size :=
  length_cut size _ xs

end Blocks

namespace Line

theorem getD_wordsOf? (lines : Nat) :
    (wordsOf? lines).getD maxWords = if 8 * lines ≤ maxWords then 8 * lines else maxWords := by
  by_cases hlines : lines ≤ maxWords
  · have hwords : wordsOf? lines = counted? (lines * 8) := by
      rw [wordsOf?, counted?, if_pos hlines]
      rfl
    rw [hwords, counted?, Nat.mul_comm]
    split <;> rfl
  · have hnone : wordsOf? lines = none := by
      rw [wordsOf?, counted?, if_neg hlines]
      rfl
    rw [hnone, if_neg (by omega), Option.getD_none]

variable {α : Type} {buf : List UInt64} {lines : Nat}

theorem require_wordsOf?_of_lt (hbuf : buf.length < maxWords) (h : buf.length < 8 * lines) :
    require buf (wordsOf? lines) =
      .error (.shortBuffer (if 8 * lines ≤ maxWords then 8 * lines else maxWords) buf.length) := by
  have hshort : buf.length < if 8 * lines ≤ maxWords then 8 * lines else maxWords := by
    split <;> assumption
  rw [require, getD_wordsOf?, if_pos hshort]

theorem require_wordsOf?_of_le (hbuf : buf.length < maxWords) (h : 8 * lines ≤ buf.length) :
    require buf (wordsOf? lines) = .ok (8 * lines) := by
  have hcounted : 8 * lines ≤ maxWords := by omega
  rw [require, getD_wordsOf?, if_pos hcounted, if_neg (by omega)]

theorem map_require_eq_ok (hbuf : buf.length < maxWords) (h : 8 * lines ≤ buf.length)
    (f : Nat → α) : (require buf (wordsOf? lines)).map f = .ok (f (8 * lines)) := by
  rw [require_wordsOf?_of_le hbuf h, Except.map]

theorem map_require_eq_error_iff (hbuf : buf.length < maxWords) (f : Nat → α) (e : DataError) :
    (require buf (wordsOf? lines)).map f = .error e ↔ buf.length < 8 * lines ∧
      e = .shortBuffer (if 8 * lines ≤ maxWords then 8 * lines else maxWords) buf.length := by
  by_cases h : buf.length < 8 * lines
  · rw [require_wordsOf?_of_lt hbuf h, Except.map, Except.error.injEq]
    simp only [h, true_and, eq_comm]
  · rw [map_require_eq_ok hbuf (by omega)]
    simp [h]

def lineAt (buf : List UInt64) (i : Nat) : List UInt64 :=
  (buf.drop (8 * i)).take 8

theorem first_lineAt (buf : List UInt64) (i : Nat) : first (lineAt buf i) = buf.getD (8 * i) 0 := by
  rw [first, lineAt, List.getD_eq_getElem?_getD, List.getElem?_take_of_lt (by decide),
    List.getElem?_drop, List.getD_eq_getElem?_getD, Nat.add_zero]

theorem last_lineAt (buf : List UInt64) (i : Nat) :
    last (lineAt buf i) = buf.getD (8 * i + 7) 0 := by
  rw [last, lineAt, List.getD_eq_getElem?_getD, List.getElem?_take_of_lt (by decide),
    List.getElem?_drop, List.getD_eq_getElem?_getD]

theorem getElem?_lines {i : Nat} (hi : 8 * (i + 1) ≤ buf.length) :
    (Blocks.whole words buf)[i]? = some (lineAt buf i) :=
  Blocks.getElem?_whole (by decide) buf hi

theorem take_lines (h : 8 * lines ≤ buf.length) :
    (Blocks.whole words buf).take lines = (List.range lines).map (lineAt buf) := by
  apply List.ext_getElem?
  intro i
  by_cases hi : i < lines
  · rw [List.getElem?_take_of_lt hi, getElem?_lines (by omega), List.getElem?_map,
      List.getElem?_range hi, Option.map_some]
  · rw [List.getElem?_eq_none (by rw [List.length_take]; omega),
      List.getElem?_eq_none (by rw [List.length_map, List.length_range]; omega)]

theorem lineAt_take (buf : List UInt64) {i : Nat} (hi : i < lines) :
    lineAt (buf.take (8 * lines)) i = lineAt buf i := by
  rw [lineAt, List.drop_take, List.take_take, Nat.min_eq_left (by omega), lineAt]

theorem length_lineAt {i : Nat} (hi : 8 * (i + 1) ≤ buf.length) : (lineAt buf i).length = words := by
  rw [lineAt, List.length_take, List.length_drop, words]
  omega

theorem whole_take (h : 8 * lines ≤ buf.length) :
    Blocks.whole words (buf.take (8 * lines)) = (List.range lines).map (lineAt buf) := by
  have hlen : (buf.take (8 * lines)).length = 8 * lines := by
    rw [List.length_take]
    omega
  have hcount : (Blocks.whole words (buf.take (8 * lines))).length = lines := by
    rw [Blocks.length_whole, hlen, words, Nat.mul_div_cancel_left lines (by decide)]
  have hall : (Blocks.whole words (buf.take (8 * lines))).take lines =
      (List.range lines).map (lineAt (buf.take (8 * lines))) := take_lines (Nat.le_of_eq hlen.symm)
  rw [List.take_of_length_le (Nat.le_of_eq hcount)] at hall
  rw [hall]
  exact List.map_congr_left fun i hi => lineAt_take buf (List.mem_range.1 hi)

end Line

end AfuBench
