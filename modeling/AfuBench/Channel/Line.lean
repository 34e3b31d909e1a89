import AfuBench.Blocks
import AfuBench.RollingHash
import AfuBench.TestData.Error

namespace AfuBench.Line

def words : Nat := 8

def marker : UInt64 := 0xdeadbeef

/-- The most words a buffer can be asked for; a larger demand is reported as this one. -/
def maxWords : Nat := UInt64.size - 1

def first (line : List UInt64) : UInt64 :=
  line.getD 0 0

def last (line : List UInt64) : UInt64 :=
  line.getD 7 0

def sample (line : List UInt64) : UInt32 :=
  (last line >>> 48).toUInt32 <<< 16 ||| (first line &&& 0xffff).toUInt32

def sample? (line : List UInt64) : Except OutOfBounds UInt32 :=
  if line.length = 0 then .error ⟨0, 0⟩
  else if line.length < words then .error ⟨line.length, 7⟩
  else .ok (sample line)

def counted? (n : Nat) : Option Nat :=
  if n ≤ maxWords then some n else none

def wordsOf? (lines : Nat) : Option Nat := do
  let lines ← counted? lines
  counted? (lines * words)

def require (buf : List UInt64) (demand : Option Nat) : Except DataError Nat :=
  if buf.length < demand.getD maxWords then
    .error (.shortBuffer (demand.getD maxWords) buf.length)
  else .ok (demand.getD maxWords)

def readHash (buf : List UInt64) (bursts size : Nat) : Except DataError UInt32 :=
  (require buf (wordsOf? (bursts * size))).map fun demand =>
    RollingHash.fold RollingHash.initial ((Blocks.whole words (buf.take demand)).map sample)

inductive WriteCheck where
  | pass
  | badLine (index : Nat)
  deriving DecidableEq, Repr

def Stamped (base : UInt64) (i : Nat) (line : List UInt64) : Prop :=
  first line = base + UInt64.ofNat i ∧ last line = marker

instance (base : UInt64) (i : Nat) (line : List UInt64) : Decidable (Stamped base i line) :=
  inferInstanceAs (Decidable (_ ∧ _))

def Untouched (line : List UInt64) : Prop :=
  first line = 0 ∧ last line = 0

instance (line : List UInt64) : Decidable (Untouched line) :=
  inferInstanceAs (Decidable (_ ∧ _))

def judge (base : UInt64) (count : Nat) (lines : List (List UInt64)) : WriteCheck :=
  match (lines.take count).zipIdx.find? fun (line, i) => ¬ Stamped base i line with
  | some (_, i) => .badLine i
  | none =>
    match (lines.drop count).head? with
    | some tail => if Untouched tail then .pass else .badLine count
    | none => .badLine count

def checkWritten (buf : List UInt64) (base : UInt64) (count : Nat) :
    Except DataError WriteCheck :=
  (require buf (wordsOf? (count + 1))).map fun _ => judge base count (Blocks.whole words buf)

end AfuBench.Line
