import AfuBench.RollingHash
import AfuBench.TestData.Generator

namespace AfuBench

def freshBuckets (count : Nat) : List UInt32 :=
  List.replicate count RollingHash.initial

def absorb (buckets : List UInt32) (data : List UInt64) : List UInt32 :=
  List.zipWith RollingHash.step buckets (Word.lanes data)

def xorAll (hs : List UInt32) : UInt32 :=
  hs.foldl (· ^^^ ·) 0

def reduce (buckets : List UInt32) : UInt64 :=
  Word.ofLanes (xorAll (buckets.take (buckets.length / 2)))
    (xorAll (buckets.drop (buckets.length / 2)))

def absorbSequence (seed : UInt64) : Nat → List UInt64 → List UInt32 → List UInt32
  | 0, _, buckets => buckets
  | n + 1, data, buckets => absorbSequence seed n (nextVector seed data) (absorb buckets data)

theorem absorbSequence_eq (seed : UInt64) (n : Nat) (data : List UInt64) (buckets : List UInt32) :
    absorbSequence seed n data buckets = (vectorsFrom seed n data).foldl absorb buckets := by
  induction n generalizing data buckets with
  | zero => rfl
  | succ n ih => rw [absorbSequence, ih, vectorsFrom_succ]; rfl

def streamHash (words : Nat) (stream : List (List UInt64)) : UInt64 :=
  reduce (stream.foldl absorb (freshBuckets (2 * words)))

def expectedHash (bytes : Nat) (seed : UInt64) (count : Nat) : Except DataError UInt64 :=
  (wordCount bytes).map fun words =>
    reduce (absorbSequence seed count (initialVector seed words) (freshBuckets (2 * words)))

theorem expectedHash_eq (bytes : Nat) (seed : UInt64) (count : Nat) :
    expectedHash bytes seed count =
      (wordCount bytes).map fun words => streamHash words (vectors seed words count) := by
  simp only [expectedHash, absorbSequence_eq, streamHash, vectors]

theorem expectedHash_of_wordCount {bytes words : Nat} (h : wordCount bytes = .ok words)
    (seed : UInt64) (count : Nat) :
    expectedHash bytes seed count = .ok (streamHash words (vectors seed words count)) := by
  rw [expectedHash_eq, h]
  rfl

def absorbVector (buckets : List UInt32) (data : List UInt64) : Except DataError (List UInt32) :=
  if data.length = 0 then .error (.invalidLength 0)
  else if buckets.length ≠ 2 * data.length then
    .error (.bucketMismatch (2 * data.length) buckets.length)
  else .ok (absorb buckets data)

def resetBuckets (buckets : List UInt32) : Except DataError (List UInt32) :=
  (wordCount (4 * buckets.length)).map fun _ => freshBuckets buckets.length

def reduceBuckets (buckets : List UInt32) : Except DataError UInt64 :=
  (wordCount (4 * buckets.length)).map fun _ => reduce buckets

structure Checker where
  buckets : List UInt32
  deriving DecidableEq, Repr

namespace Checker

def new (bytes : Nat) : Except DataError Checker :=
  (wordCount bytes).map fun words => ⟨freshBuckets (2 * words)⟩

def restart (c : Checker) : Checker :=
  ⟨freshBuckets c.buckets.length⟩

def update (c : Checker) (data : List UInt64) : Except DataError Checker :=
  (absorbVector c.buckets data).map .mk

def value (c : Checker) : UInt64 :=
  reduce c.buckets

def bytes (c : Checker) : Nat :=
  4 * c.buckets.length

end Checker

end AfuBench
