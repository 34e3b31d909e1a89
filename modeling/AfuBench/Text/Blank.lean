namespace AfuBench.Text

def isBlank (c : Char) : Bool :=
  let n := c.toNat
  0x9 ≤ n && n ≤ 0xd || n == 0x20 || n == 0x85 || n == 0xa0 || n == 0x1680 ||
    0x2000 ≤ n && n ≤ 0x200a || n == 0x2028 || n == 0x2029 || n == 0x202f || n == 0x205f ||
    n == 0x3000

def trimEnd (cs : List Char) : List Char :=
  (cs.reverse.dropWhile isBlank).reverse

def trim (cs : List Char) : List Char :=
  trimEnd (cs.dropWhile isBlank)

def isSpace (c : Char) : Bool :=
  c == ' ' || c == '\t'

theorem isSpace_iff {c : Char} : isSpace c ↔ c = ' ' ∨ c = '\t' := by
  simp [isSpace]

theorem isBlank_of_isSpace {c : Char} (h : isSpace c) : isBlank c := by
  rcases isSpace_iff.1 h with rfl | rfl <;> rfl

end AfuBench.Text
