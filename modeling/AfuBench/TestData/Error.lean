import AfuBench.Digits

namespace AfuBench

inductive DataError where
  | invalidLength (bytes : Nat)
  | bucketMismatch (expected actual : Nat)
  | shortBuffer (expected actual : Nat)
  | updateCount (count capacity : Nat)
  deriving DecidableEq, Repr

def DataError.message : DataError → String
  | .invalidLength bytes =>
    "invalid data vector length " ++ decimal bytes ++ " (must be a non-zero multiple of 8 bytes)"
  | .bucketMismatch expected actual =>
    "hash vector holds " ++ decimal actual ++ " buckets, data vector needs " ++ decimal expected
  | .shortBuffer expected actual =>
    "buffer holds " ++ decimal actual ++ " words, " ++ decimal expected ++ " required"
  | .updateCount count capacity =>
    decimal count ++ " atomic updates requested, buffer holds " ++ decimal capacity ++ " entries"

structure OutOfBounds where
  length : Nat
  index : Nat
  deriving DecidableEq, Repr

def OutOfBounds.message (e : OutOfBounds) : String :=
  "index out of bounds: the len is " ++ decimal e.length ++ " but the index is " ++ decimal e.index

def wordCount (bytes : Nat) : Except DataError Nat :=
  if bytes < 8 ∨ bytes % 8 ≠ 0 then .error (.invalidLength bytes) else .ok (bytes / 8)

theorem wordCount_eight_mul {words : Nat} (h : 0 < words) : wordCount (8 * words) = .ok words := by
  have h8 : ¬ (8 * words < 8 ∨ 8 * words % 8 ≠ 0) := by omega
  rw [wordCount, if_neg h8, Nat.mul_div_cancel_left words (by omega)]

theorem wordCount_eq_ok_iff {bytes words : Nat} :
    wordCount bytes = .ok words ↔ 0 < words ∧ bytes = 8 * words := by
  constructor
  · intro h
    rw [wordCount] at h
    split at h
    · simp at h
    · simp only [Except.ok.injEq] at h
      omega
  · rintro ⟨hw, rfl⟩
    exact wordCount_eight_mul hw

end AfuBench
