/-!
The rolling 32-bit hash of the test engines: a feedback shift register that takes in one word a
beat. `step` works on whole words; `cell` states the register cell by cell.
-/

namespace AfuBench.RollingHash

def initial : UInt32 := 0x14d6

def taps : UInt32 := 0x57

def step (h d : UInt32) : UInt32 :=
  (h >>> 1 ||| h <<< 31) ^^^ (if h &&& 1 = 1 then taps else 0) ^^^ d

def fold (h : UInt32) (ds : List UInt32) : UInt32 :=
  ds.foldl step h

theorem fold_nil (h : UInt32) : fold h [] = h := rfl

theorem fold_cons (h d : UInt32) (ds : List UInt32) : fold h (d :: ds) = fold (step h d) ds := rfl

theorem fold_append (h : UInt32) (as bs : List UInt32) :
    fold h (as ++ bs) = fold (fold h as) bs :=
  List.foldl_append

/-- The 32 cells of the register, lowest first. -/
def cells (w : UInt32) : Vector Bool 32 :=
  Vector.ofFn fun i => w.toBitVec.getLsbD i

/-- Every cell takes its upper neighbour and its data bit; the lowest cell wraps round to the top
and feeds back into the taps. -/
def beat (h d : Vector Bool 32) : Vector Bool 32 :=
  Vector.ofFn fun i =>
    if hi : i.val = 31 then d.get i ^^ h.get 0
    else if i ∈ [0, 1, 2, 4, 6] then d.get i ^^ h.get ⟨i + 1, by omega⟩ ^^ h.get 0
    else d.get i ^^ h.get ⟨i + 1, by omega⟩

end AfuBench.RollingHash
