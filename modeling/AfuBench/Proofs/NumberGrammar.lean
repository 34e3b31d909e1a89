import AfuBench.Proofs.Numerals
import AfuBench.Proofs.Trimming
import Mathlib.Data.List.Induction
import Mathlib.Data.Nat.Digits.Defs
import Mathlib.Tactic.IntervalCases

namespace AfuBench.Number

def digitOrder : List Char := "0123456789abcdef".toList

def rank (c : Char) : Nat :=
  digitOrder.idxOf c.toLower

def denoted (base : Nat) (digits : List Char) : Nat :=
  Nat.ofDigits base (digits.reverse.map rank)

section

variable {c : Char}

theorem mem_of_isHexDigit (hc : isHexDigit c) : c ∈ "0123456789abcdefABCDEF".toList := by
  have hval (d : Char) : d ≤ c ↔ d.toNat ≤ c.toNat := Iff.rfl
  have hval' (d : Char) : c ≤ d ↔ c.toNat ≤ d.toNat := Iff.rfl
  simp only [isHexDigit, isDigit, Bool.or_eq_true, Bool.and_eq_true, decide_eq_true_eq, hval,
    hval', Char.reduceToNat] at hc
  rw [← Char.ofNat_toNat c]
  generalize c.toNat = n at hc ⊢
  rcases hc with (⟨hlow, hhigh⟩ | ⟨hlow, hhigh⟩) | ⟨hlow, hhigh⟩ <;> interval_cases n <;> decide

theorem rank_of_isHexDigit (hc : isHexDigit c) :
    rank c < 16 ∧ digitValue c = rank c ∧ (isDigit c ↔ rank c < 10) := by
  have hall : ("0123456789abcdefABCDEF".toList.all fun c =>
      decide (rank c < 16 ∧ digitValue c = rank c ∧ (isDigit c ↔ rank c < 10))) = true := by
    decide
  exact of_decide_eq_true (List.all_eq_true.1 hall c (mem_of_isHexDigit hc))

theorem isHexDigit_of_rank_lt (hc : rank c < 16) : isHexDigit c := by
  by_cases hcapital : 65 ≤ c.toNat ∧ c.toNat ≤ 90
  · -- A capital behind `F` has a small letter that is no digit.
    obtain ⟨hlow, hhigh⟩ := hcapital
    rw [← Char.ofNat_toNat c] at hc ⊢
    generalize c.toNat = n at hc hlow hhigh ⊢
    interval_cases n <;> first | rfl | exact absurd hc (by decide)
  · have hsame : c.toLower = c := dif_neg hcapital
    have hmem : c.toLower ∈ digitOrder := List.idxOf_lt_length_iff.1 hc
    have hall : digitOrder.all isHexDigit = true := by decide
    exact List.all_eq_true.1 hall c (hsame ▸ hmem)

theorem isHexDigit_iff : isHexDigit c ↔ rank c < 16 :=
  ⟨fun hc => (rank_of_isHexDigit hc).1, isHexDigit_of_rank_lt⟩

theorem isDigit_iff : isDigit c ↔ rank c < 10 := by
  constructor
  · intro hc
    exact (rank_of_isHexDigit (by simp [isHexDigit, hc])).2.2.1 hc
  · intro hc
    exact (rank_of_isHexDigit (isHexDigit_of_rank_lt (by omega))).2.2.2 hc

theorem ne_underscore_of_isHexDigit (hc : isHexDigit c) : c ≠ '_' := by
  rintro rfl
  exact absurd hc (by decide)

theorem isHexMark_iff : isHexMark c ↔ c = '_' ∨ rank c < 16 := by
  rw [isHexMark, Bool.or_eq_true, isHexDigit_iff, beq_iff_eq, or_comm]

theorem not_isBlank_of_isHexMark (hc : isHexMark c) : ¬ Text.isBlank c := by
  have hall : ('_' :: "0123456789abcdefABCDEF".toList).all (fun c => !Text.isBlank c) = true := by
    decide
  have hmem : c ∈ '_' :: "0123456789abcdefABCDEF".toList := by
    rw [isHexMark, Bool.or_eq_true, beq_iff_eq] at hc
    rcases hc with hdigit | rfl
    · exact List.mem_cons_of_mem _ (mem_of_isHexDigit hdigit)
    · exact List.mem_cons_self
  simpa using List.all_eq_true.1 hall c hmem

end

theorem value_eq_denoted (base : Nat) {digits : List Char} (hall : ∀ c ∈ digits, isHexDigit c) :
    value base digits = denoted base digits := by
  induction digits using List.reverseRecOn with
  | nil => rfl
  | append_singleton digits c ih =>
    have hc : digitValue c = rank c := (rank_of_isHexDigit (hall c (by simp))).2.1
    rw [value_concat, ih fun d hd => hall d (by simp [hd]), hc, denoted, denoted,
      List.reverse_append, List.reverse_singleton, List.singleton_append, List.map_cons,
      Nat.ofDigits_cons, Nat.add_comm]

structure DecimalNumeral (numeral : List Char) (v : UInt64) : Prop where
  nonempty : numeral ≠ []
  digits : ∀ c ∈ numeral, rank c < 10
  value : denoted 10 numeral = v.toNat

structure HexRun (run : List Char) (v : UInt64) : Prop where
  marks : ∀ c ∈ run, c = '_' ∨ rank c < 16
  digit : ∃ c ∈ run, c ≠ '_'
  value : denoted 16 (run.filter (· ≠ '_')) = v.toNat

def HexNumeral (numeral : List Char) (v : UInt64) : Prop :=
  ∃ x run, (x = 'x' ∨ x = 'X') ∧ numeral = '0' :: x :: run ∧ HexRun run v

def Numeral (numeral : List Char) (v : UInt64) : Prop :=
  DecimalNumeral numeral v ∨ HexNumeral numeral v

def DecimalFront (cs : List Char) (v : UInt64) (rest : List Char) : Prop :=
  ∃ numeral, cs = numeral ++ rest ∧ DecimalNumeral numeral v ∧ ∀ c ∈ rest.head?, ¬ rank c < 10

def HexFront (cs : List Char) (v : UInt64) (rest : List Char) : Prop :=
  ∃ numeral, cs = numeral ++ rest ∧ HexNumeral numeral v ∧
    ∀ c ∈ rest.head?, ¬ (c = '_' ∨ rank c < 16)

variable {cs run numeral rest : List Char} {v : UInt64}

theorem ofNat_eq_iff {n : Nat} (hn : n < limit) : UInt64.ofNat n = v ↔ n = v.toNat := by
  constructor
  · rintro rfl
    exact (UInt64.toNat_ofNat_of_lt' hn).symm
  · rintro rfl
    exact UInt64.ofNat_toNat

theorem filter_isHexDigit (hrun : ∀ c ∈ run, isHexMark c) :
    run.filter isHexDigit = run.filter (· ≠ '_') := by
  apply List.filter_congr
  intro c hc
  rcases isHexMark_iff.1 (hrun c hc) with rfl | hdigit
  · decide
  · have hhex := isHexDigit_iff.2 hdigit
    simp [hhex, ne_underscore_of_isHexDigit hhex]

theorem hexValue?_eq_some_iff (hrun : ∀ c ∈ run, isHexMark c) :
    hexValue? run = some v ↔ HexRun run v := by
  have hdenoted : value 16 (run.filter (· ≠ '_')) = denoted 16 (run.filter (· ≠ '_')) := by
    apply value_eq_denoted
    rw [← filter_isHexDigit hrun]
    exact fun c hc => (List.mem_filter.1 hc).2
  have hdigits : run.filter (· ≠ '_') ≠ [] ↔ ∃ c ∈ run, c ≠ '_' := by
    simp [List.filter_eq_nil_iff]
  rw [hexValue?]
  simp only [filter_isHexDigit hrun, hdenoted, hdigits]
  constructor
  · intro h
    split at h
    · next hfits =>
      exact ⟨fun c hc => isHexMark_iff.1 (hrun c hc), hfits.1,
        (ofNat_eq_iff hfits.2).1 (Option.some.inj h)⟩
    · exact absurd h (by simp)
  · rintro ⟨_, hdigit, hvalue⟩
    have hlt : denoted 16 (run.filter (· ≠ '_')) < limit := hvalue ▸ v.toNat_lt_size
    rw [if_pos ⟨hdigit, hlt⟩, (ofNat_eq_iff hlt).2 hvalue]

theorem hexLiteral?_eq_some_iff : hexLiteral? cs = some (v, rest) ↔ HexFront cs v rest := by
  constructor
  · intro h
    unfold hexLiteral? at h
    split at h
    · next x run =>
      split at h
      · next hx =>
        obtain ⟨w, hw, heq⟩ := Option.map_eq_some_iff.1 h
        obtain ⟨rfl, hrest⟩ := Prod.mk.inj heq
        obtain ⟨hsplit, hmarks, hstop⟩ := takeWhile_dropWhile_iff.1 ⟨rfl, hrest⟩
        refine ⟨'0' :: x :: run.takeWhile isHexMark, by simpa using hsplit,
          ⟨x, _, hx, rfl, (hexValue?_eq_some_iff hmarks).1 hw⟩, ?_⟩
        exact fun c hc hmark => hstop c hc (isHexMark_iff.2 hmark)
      · exact absurd h (by simp)
    · exact absurd h (by simp)
  · rintro ⟨_, rfl, ⟨x, run, hx, rfl, hrun⟩, hstop⟩
    have hmarks : ∀ c ∈ run, isHexMark c := fun c hc => isHexMark_iff.2 (hrun.marks c hc)
    have hend : ∀ c ∈ rest.head?, ¬ isHexMark c := fun c hc h => hstop c hc (isHexMark_iff.1 h)
    have hvalue := (hexValue?_eq_some_iff hmarks).2 hrun
    simp only [List.cons_append, hexLiteral?, hx, if_true, takeWhile_append_stop hmarks hend,
      dropWhile_append_stop hmarks hend, hvalue, Option.map_some]

theorem decimalLiteral_eq_ok_iff :
    decimalLiteral cs = .ok (v, rest) ↔ DecimalFront cs v rest := by
  have hdenoted {digits : List Char} (hall : ∀ c ∈ digits, isDigit c) :
      value 10 digits = denoted 10 digits :=
    value_eq_denoted 10 fun c hc => by simp [isHexDigit, hall c hc]
  constructor
  · intro h
    simp only [decimalLiteral] at h
    split at h
    · exact absurd h (by simp)
    · next hne =>
      split at h
      · next hlt =>
        obtain ⟨hv, hrest⟩ := Prod.mk.inj (Except.ok.inj h)
        obtain ⟨hsplit, hdigits, hstop⟩ := takeWhile_dropWhile_iff.1 ⟨rfl, hrest⟩
        have hvalue := (ofNat_eq_iff hlt).1 hv
        rw [hdenoted hdigits] at hvalue
        exact ⟨_, hsplit, ⟨hne, fun c hc => isDigit_iff.1 (hdigits c hc), hvalue⟩,
          fun c hc hdigit => hstop c hc (isDigit_iff.2 hdigit)⟩
      · exact absurd h (by simp)
  · rintro ⟨digits, rfl, ⟨hne, hdigits, hvalue⟩, hstop⟩
    have hall : ∀ c ∈ digits, isDigit c := fun c hc => isDigit_iff.2 (hdigits c hc)
    have hend : ∀ c ∈ rest.head?, ¬ isDigit c := fun c hc h => hstop c hc (isDigit_iff.1 h)
    have hlt : denoted 10 digits < limit := hvalue ▸ v.toNat_lt_size
    simp only [decimalLiteral, takeWhile_append_stop hall hend, dropWhile_append_stop hall hend,
      hne, hdenoted hall, hlt, (ofNat_eq_iff hlt).2 hvalue, if_false, if_true]

theorem literal_eq_ok_iff :
    literal cs = .ok (v, rest) ↔
      HexFront cs v rest ∨ (¬ ∃ w tail, HexFront cs w tail) ∧ DecimalFront cs v rest := by
  rw [literal]
  cases hhex : hexLiteral? cs with
  | some found =>
    obtain ⟨w, tail⟩ := found
    have hfront := hexLiteral?_eq_some_iff.1 hhex
    have hsame : HexFront cs v rest ↔ (w, tail) = (v, rest) := by
      rw [← hexLiteral?_eq_some_iff, hhex, Option.some.injEq]
    simp only [Except.ok.injEq, hsame]
    constructor
    · exact .inl
    · rintro (heq | ⟨hnone, _⟩)
      · exact heq
      · exact absurd ⟨w, tail, hfront⟩ hnone
  | none =>
    have hnone : ∀ w tail, ¬ HexFront cs w tail := by
      intro w tail hfront
      rw [← hexLiteral?_eq_some_iff, hhex] at hfront
      exact absurd hfront (by simp)
    simp [hnone, decimalLiteral_eq_ok_iff]

def Ends (rest : List Char) : Prop :=
  ∀ c ∈ rest.head?, Text.isSpace c

def Reads (numeral : List Char) (v : UInt64) : Prop :=
  ∀ rest, Ends rest → literal (numeral ++ rest) = .ok (v, rest)

theorem Ends.nil : Ends [] := by
  simp [Ends]

theorem Ends.not_mark (hrest : Ends rest) : ∀ c ∈ rest.head?, ¬ (c = '_' ∨ rank c < 16) := by
  intro c hc
  rcases Text.isSpace_iff.1 (hrest c hc) with rfl | rfl <;> decide

theorem DecimalNumeral.not_hexFront (h : DecimalNumeral numeral v) (hrest : Ends rest) :
    ¬ ∃ w tail, HexFront (numeral ++ rest) w tail := by
  rintro ⟨w, tail, _, hsplit, ⟨x, run, hx, rfl, _⟩, _⟩
  have hletter : ¬ (rank x < 10 ∨ Text.isSpace x) := by
    rcases hx with rfl | rfl <;> decide
  match numeral, h.nonempty, h.digits with
  | [_], _, _ =>
    obtain ⟨_, rfl⟩ := List.cons.inj hsplit
    exact hletter (.inr (hrest x rfl))
  | _ :: d :: _, _, hdigits =>
    obtain ⟨_, hsplit⟩ := List.cons.inj hsplit
    obtain ⟨rfl, _⟩ := List.cons.inj hsplit
    exact hletter (.inl (hdigits d (by simp)))

theorem Numeral.reads (h : Numeral numeral v) : Reads numeral v := by
  intro rest hrest
  rw [literal_eq_ok_iff]
  rcases h with hdecimal | hhex
  · exact .inr ⟨hdecimal.not_hexFront hrest, numeral, rfl, hdecimal,
      fun c hc hdigit => hrest.not_mark c hc (.inr (by omega))⟩
  · exact .inl ⟨numeral, rfl, hhex, hrest.not_mark⟩

theorem exists_numeral (h : literal cs = .ok (v, rest)) :
    ∃ numeral, cs = numeral ++ rest ∧ Numeral numeral v := by
  rcases literal_eq_ok_iff.1 h with ⟨numeral, hsplit, hhex, _⟩ | ⟨_, numeral, hsplit, hdecimal, _⟩
  · exact ⟨numeral, hsplit, .inr hhex⟩
  · exact ⟨numeral, hsplit, .inl hdecimal⟩

theorem literal_eq_ok_nil_iff : literal cs = .ok (v, []) ↔ Numeral cs v := by
  constructor
  · intro h
    obtain ⟨numeral, hsplit, hnumeral⟩ := exists_numeral h
    rwa [hsplit, List.append_nil]
  · intro h
    rw [← h.reads [] Ends.nil, List.append_nil]

theorem Numeral.unique {w : UInt64} (hv : Numeral numeral v) (hw : Numeral numeral w) : v = w := by
  have heq := (literal_eq_ok_nil_iff.2 hv).symm.trans (literal_eq_ok_nil_iff.2 hw)
  exact (Prod.mk.inj (Except.ok.inj heq)).1

theorem reads_iff : Reads numeral v ↔ Numeral numeral v := by
  refine ⟨fun h => ?_, Numeral.reads⟩
  rw [← literal_eq_ok_nil_iff, ← h [] Ends.nil, List.append_nil]

theorem Numeral.not_isBlank (h : Numeral numeral v) : ∀ c ∈ numeral, ¬ Text.isBlank c := by
  intro c hc
  rcases h with hdecimal | ⟨x, run, hx, rfl, hrun⟩
  · exact not_isBlank_of_isHexMark (isHexMark_iff.2 (.inr (by have := hdecimal.digits c hc; omega)))
  · rcases List.mem_cons.1 hc with rfl | hc
    · decide
    rcases List.mem_cons.1 hc with rfl | hc
    · rcases hx with rfl | rfl <;> decide
    · exact not_isBlank_of_isHexMark (isHexMark_iff.2 (hrun.marks c hc))

theorem parse?_eq_some_iff :
    parse? cs = some v ↔
      ∃ before numeral after, cs = before ++ (numeral ++ after) ∧
        (∀ c ∈ before, Text.isBlank c) ∧ (∀ c ∈ after, Text.isBlank c) ∧ Numeral numeral v := by
  have hwhole : parse? cs = some v ↔ Numeral (Text.trim cs) v := by
    rw [← literal_eq_ok_nil_iff, parse?]
    split
    · next w hw => simp [hw]
    · next hother =>
      constructor
      · intro h
        exact absurd h (by simp)
      · exact fun h => absurd h (hother v)
  rw [hwhole]
  constructor
  · intro h
    obtain ⟨before, after, hsplit, hbefore, hafter⟩ := Text.exists_margins cs
    exact ⟨before, _, after, hsplit, hbefore, hafter, h⟩
  · rintro ⟨before, numeral, after, rfl, hbefore, hafter, h⟩
    rwa [Text.trim_margins hbefore hafter (fun c hc => h.not_isBlank c (List.mem_of_head? hc))
      fun c hc => h.not_isBlank c (List.mem_of_getLast? hc)]

theorem decimalNumeral_decimal (v : UInt64) : DecimalNumeral (decimal v.toNat).toList v := by
  rw [toList_decimal]
  have hdigits : ∀ c ∈ Nat.toDigits 10 v.toNat, isDigit c :=
    fun _ => isDigit_of_mem_toDigits
  refine ⟨Nat.toDigits_ne_nil, fun c hc => isDigit_iff.1 (hdigits c hc), ?_⟩
  rw [← value_eq_denoted 10 fun c hc => by simp [isHexDigit, hdigits c hc]]
  exact value_toDigits (by decide) (by decide) _

theorem hexRun_digits {digits : List Char} (hne : digits ≠ []) (hall : ∀ c ∈ digits, isHexDigit c)
    (hv : value 16 digits = v.toNat) : HexRun digits v := by
  have hmarks : ∀ c ∈ digits, isHexMark c := fun c hc => by simp [isHexMark, hall c hc]
  have hfilter : digits.filter (· ≠ '_') = digits := by
    rw [← filter_isHexDigit hmarks]
    exact List.filter_eq_self.2 hall
  refine ⟨fun c hc => isHexMark_iff.1 (hmarks c hc), ?_, ?_⟩
  · obtain ⟨c, hc⟩ := List.exists_mem_of_ne_nil digits hne
    exact ⟨c, hc, ne_underscore_of_isHexDigit (hall c hc)⟩
  · rw [hfilter, ← value_eq_denoted 16 hall, hv]

theorem hexNumeral_hexWord (v : UInt64) : HexNumeral ('0' :: 'x' :: (hexWord v).toList) v := by
  refine ⟨'x', _, .inl rfl, rfl, ?_⟩
  rw [hexWord, toList_hex]
  exact hexRun_digits Nat.toDigits_ne_nil (fun _ => isHexDigit_of_mem_toDigits)
    (value_toDigits (by decide) (by decide) _)

theorem hexNumeral_hexWordFull (v : UInt64) :
    HexNumeral ('0' :: 'x' :: (hexWordFull v).toList) v :=
  ⟨'x', _, .inl rfl, rfl, hexRun_digits (hexWordFull_ne_nil v)
    (fun _ => isHexDigit_of_mem_hexWordFull) (value_hexWordFull v)⟩

theorem reads_decimal (v : UInt64) : Reads (decimal v.toNat).toList v :=
  Numeral.reads (.inl (decimalNumeral_decimal v))

theorem reads_hexWord (v : UInt64) : Reads ('0' :: 'x' :: (hexWord v).toList) v :=
  Numeral.reads (.inr (hexNumeral_hexWord v))

theorem reads_hexWordFull (v : UInt64) : Reads ('0' :: 'x' :: (hexWordFull v).toList) v :=
  Numeral.reads (.inr (hexNumeral_hexWordFull v))

/-- A text is a number when nothing but a numeral of the grammar stands between white space, and it
is the number that this numeral denotes. Of a longer text the hexadecimal numeral at its front is
read as far as digits and underscores go, and where there is none, the decimal one as far as digits
go. Printed words are read back. -/
theorem numeral_grammar :
    (∀ cs v, parse? cs = some v ↔
      ∃ before numeral after, cs = before ++ (numeral ++ after) ∧
        (∀ c ∈ before, Text.isBlank c) ∧ (∀ c ∈ after, Text.isBlank c) ∧
        (DecimalNumeral numeral v ∨ HexNumeral numeral v)) ∧
    (∀ cs v rest, literal cs = .ok (v, rest) ↔
      HexFront cs v rest ∨ (¬ ∃ w tail, HexFront cs w tail) ∧ DecimalFront cs v rest) ∧
    ∀ v : UInt64, parse? (decimal v.toNat).toList = some v ∧
      parse? ("0x" ++ hexWord v).toList = some v ∧
      parse? ("0x" ++ hexWordFull v).toList = some v := by
  refine ⟨fun cs v => parse?_eq_some_iff, fun cs v rest => literal_eq_ok_iff, fun v => ?_⟩
  have hread {numeral : List Char} (h : Numeral numeral v) : parse? numeral = some v :=
    parse?_eq_some_iff.2
      ⟨[], numeral, [], by simp, List.forall_mem_nil _, List.forall_mem_nil _, h⟩
  refine ⟨hread (.inl (decimalNumeral_decimal v)), hread (.inr ?_), hread (.inr ?_)⟩
  · simpa using hexNumeral_hexWord v
  · simpa using hexNumeral_hexWordFull v

example : parse? "\t0X00_fF ".toList = some 255 := by decide

/-- A prefix without a digit is a zero with a letter after it. -/
example : literal "0x_".toList = .ok (0, ['x', '_']) := by decide

end AfuBench.Number
