import AfuBench.Word
import AfuBench.TestData.Error

namespace AfuBench

def Generator.pattern : Vector UInt64 8 :=
  #v[0x860761722b164a00, 0x54de0dc97b564cbf, 0x8519a51b2767a2fa, 0x33b23fb3ab3c4277,
    0xafcc6ba3db67f2b3, 0x76655f3e9ba84438, 0xb173761f0b5a083b, 0x8644554624594bbf]

def initialVector (seed : UInt64) (words : Nat) : List UInt64 :=
  (List.range words).map fun i =>
    Generator.pattern.get (Fin.ofNat 8 i) ^^^ Word.rotateLeft seed i

def nextVector (seed : UInt64) (data : List UInt64) : List UInt64 :=
  data.mapIdx fun i w => Word.rotateLeft w 8 ^^^ Word.rotateLeft seed i

theorem length_initialVector (seed : UInt64) (words : Nat) :
    (initialVector seed words).length = words := by
  simp [initialVector]

theorem length_nextVector (seed : UInt64) (data : List UInt64) :
    (nextVector seed data).length = data.length := by
  simp [nextVector]

def vectorsOnto (seed : UInt64) : Nat → List UInt64 → List (List UInt64) → List (List UInt64)
  | 0, _, done => done.reverse
  | n + 1, data, done => vectorsOnto seed n (nextVector seed data) (data :: done)

def vectorsFrom (seed : UInt64) (n : Nat) (data : List UInt64) : List (List UInt64) :=
  vectorsOnto seed n data []

def vectors (seed : UInt64) (words n : Nat) : List (List UInt64) :=
  vectorsFrom seed n (initialVector seed words)

theorem vectorsOnto_eq (seed : UInt64) (n : Nat) (data : List UInt64) (done : List (List UInt64)) :
    vectorsOnto seed n data done = done.reverse ++ vectorsFrom seed n data := by
  induction n generalizing data done with
  | zero => simp [vectorsFrom, vectorsOnto]
  | succ n ih => rw [vectorsFrom, vectorsOnto, vectorsOnto, ih, ih _ [_]]; simp

theorem vectorsFrom_succ (seed : UInt64) (n : Nat) (data : List UInt64) :
    vectorsFrom seed (n + 1) data = data :: vectorsFrom seed n (nextVector seed data) := by
  rw [vectorsFrom, vectorsOnto, vectorsOnto_eq]; simp

theorem length_vectorsFrom (seed : UInt64) (n : Nat) (data : List UInt64) :
    (vectorsFrom seed n data).length = n := by
  induction n generalizing data with
  | zero => rfl
  | succ n ih => simp [vectorsFrom_succ, ih]

structure Generator where
  seed : UInt64
  data : List UInt64
  deriving DecidableEq, Repr

namespace Generator

def new (bytes : Nat) (seed : UInt64) : Except DataError Generator :=
  (wordCount bytes).map fun words => ⟨seed, initialVector seed words⟩

def restart (g : Generator) : Generator :=
  { g with data := initialVector g.seed g.data.length }

def advance (g : Generator) : Generator :=
  { g with data := nextVector g.seed g.data }

def bytes (g : Generator) : Nat :=
  8 * g.data.length

end Generator

def resetVector (seed : UInt64) (data : List UInt64) : Except DataError (List UInt64) :=
  (wordCount (8 * data.length)).map (initialVector seed)

def advanceVector (seed : UInt64) (data : List UInt64) : Except DataError (List UInt64) :=
  (wordCount (8 * data.length)).map fun _ => nextVector seed data

end AfuBench
