namespace AfuBench.Blocks

variable {α : Type}

def cutOnto (size : Nat) : Nat → List α → List (List α) → List (List α)
  | 0, _, done => done.reverse
  | count + 1, xs, done => cutOnto size count (xs.drop size) (xs.take size :: done)

def cut (size count : Nat) (xs : List α) : List (List α) :=
  cutOnto size count xs []

def whole (size : Nat) (xs : List α) : List (List α) :=
  cut size (xs.length / size) xs

theorem cutOnto_eq (size count : Nat) (xs : List α) (done : List (List α)) :
    cutOnto size count xs done = done.reverse ++ cut size count xs := by
  induction count generalizing xs done with
  | zero => simp [cut, cutOnto]
  | succ count ih => rw [cut, cutOnto, cutOnto, ih, ih _ [_]]; simp

theorem cut_zero (size : Nat) (xs : List α) : cut size 0 xs = [] := rfl

theorem cut_succ (size count : Nat) (xs : List α) :
    cut size (count + 1) xs = xs.take size :: cut size count (xs.drop size) := by
  rw [cut, cutOnto, cutOnto_eq]; simp

theorem length_cut (size count : Nat) (xs : List α) : (cut size count xs).length = count := by
  induction count generalizing xs with
  | zero => rfl
  | succ count ih => simp [cut_succ, ih]

theorem flatten_cut (size count : Nat) (xs : List α) :
    (cut size count xs).flatten = xs.take (size * count) := by
  induction count generalizing xs with
  | zero => simp [cut_zero]
  | succ count ih =>
    rw [cut_succ, List.flatten_cons, ih, Nat.mul_succ, Nat.add_comm, List.take_add]

end AfuBench.Blocks
