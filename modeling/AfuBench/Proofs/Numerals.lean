import AfuBench.Digits
import AfuBench.Text.Number

namespace AfuBench

namespace Number

variable {base : Nat}

theorem value_concat (base : Nat) (cs : List Char) (c : Char) :
    value base (cs ++ [c]) = base * value base cs + digitValue c := by
  simp only [value, List.foldl_append, List.foldl_cons, List.foldl_nil]

theorem value_cons_zero (base : Nat) (cs : List Char) : value base ('0' :: cs) = value base cs := by
  simp [value, digitValue]

theorem value_replicate_zero (base k : Nat) (cs : List Char) :
    value base (List.replicate k '0' ++ cs) = value base cs := by
  induction k with
  | zero => rfl
  | succ k ih => rw [List.replicate_succ, List.cons_append, value_cons_zero, ih]

theorem digitValue_digitChar {d : Nat} (hd : d < 16) : digitValue d.digitChar = d := by
  have hall : ∀ e ∈ List.range 16, digitValue e.digitChar = e := by decide
  exact hall d (List.mem_range.2 hd)

theorem isDigit_digitChar {d : Nat} (hd : d < 10) : isDigit d.digitChar := by
  have hall : ∀ e ∈ List.range 10, isDigit e.digitChar := by decide
  exact hall d (List.mem_range.2 hd)

theorem isHexDigit_digitChar {d : Nat} (hd : d < 16) : isHexDigit d.digitChar := by
  have hall : ∀ e ∈ List.range 16, isHexDigit e.digitChar := by decide
  exact hall d (List.mem_range.2 hd)

theorem value_toDigits (hlow : 1 < base) (hhigh : base ≤ 16) (n : Nat) :
    value base (Nat.toDigits base n) = n := by
  induction n using Nat.strongRecOn with
  | _ n ih =>
    by_cases hn : n < base
    · rw [Nat.toDigits_of_lt_base hn]
      simp [value, digitValue_digitChar (show n < 16 by omega)]
    · have hlast := Nat.mod_lt n (show 0 < base by omega)
      rw [Nat.toDigits_of_base_le hlow (by omega), value_concat,
        ih _ (Nat.div_lt_self (by omega) hlow), digitValue_digitChar (by omega)]
      exact Nat.div_add_mod n base

theorem exists_of_mem_toDigits (hlow : 1 < base) {n : Nat} {c : Char}
    (hc : c ∈ Nat.toDigits base n) : ∃ d < base, c = d.digitChar := by
  induction n using Nat.strongRecOn with
  | _ n ih =>
    by_cases hn : n < base
    · rw [Nat.toDigits_of_lt_base hn, List.mem_singleton] at hc
      exact ⟨n, hn, hc⟩
    · rw [Nat.toDigits_of_base_le hlow (by omega), List.mem_append, List.mem_singleton] at hc
      rcases hc with hc | hc
      · exact ih _ (Nat.div_lt_self (by omega) hlow) hc
      · exact ⟨n % base, Nat.mod_lt n (by omega), hc⟩

theorem isDigit_of_mem_toDigits {n : Nat} {c : Char} (hc : c ∈ Nat.toDigits 10 n) : isDigit c := by
  obtain ⟨d, hd, rfl⟩ := exists_of_mem_toDigits (by decide) hc
  exact isDigit_digitChar hd

theorem isHexDigit_of_mem_toDigits {n : Nat} {c : Char} (hc : c ∈ Nat.toDigits 16 n) :
    isHexDigit c := by
  obtain ⟨d, hd, rfl⟩ := exists_of_mem_toDigits (by decide) hc
  exact isHexDigit_digitChar hd

theorem toList_hexWordFull (v : UInt64) :
    (hexWordFull v).toList =
      List.replicate (16 - (Nat.toDigits 16 v.toNat).length) '0' ++ Nat.toDigits 16 v.toNat := by
  rw [hexWordFull, hexPadded, toList_padLeft, toList_hex, List.leftpad]

theorem isHexDigit_of_mem_hexWordFull {v : UInt64} {c : Char} (hc : c ∈ (hexWordFull v).toList) :
    isHexDigit c := by
  rw [toList_hexWordFull, List.mem_append, List.mem_replicate] at hc
  rcases hc with ⟨_, rfl⟩ | hc
  · decide
  · exact isHexDigit_of_mem_toDigits hc

theorem hexWordFull_ne_nil (v : UInt64) : (hexWordFull v).toList ≠ [] := by
  rw [toList_hexWordFull]
  exact List.append_ne_nil_of_right_ne_nil _ Nat.toDigits_ne_nil

theorem value_hexWordFull (v : UInt64) : value 16 (hexWordFull v).toList = v.toNat := by
  rw [toList_hexWordFull, value_replicate_zero]
  exact value_toDigits (by decide) (by decide) _

end Number

end AfuBench
