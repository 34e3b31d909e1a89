import AfuBench.Bus.Basic

namespace AfuBench

structure RegisterFile where
  /-- Stored values, the latest first. -/
  cells : List (Nat × UInt64)
  /-- Prepared answers; the last one of a sequence stays. -/
  answers : List (Nat × List UInt64)
  refusedReads : List Nat
  refusedWrites : List Nat
  deriving DecidableEq, Repr

namespace RegisterFile

def takeAnswer (offset : Nat) : List (Nat × List UInt64) → Option (UInt64 × List (Nat × List UInt64))
  | [] => none
  | (o, values) :: rest =>
    if o = offset then
      match values with
      | [] => none
      | [v] => some (v, (o, [v]) :: rest)
      | v :: w :: vs => some (v, (o, w :: vs) :: rest)
    else (takeAnswer offset rest).map fun (v, rest) => (v, (o, values) :: rest)

instance : Bus RegisterFile where
  read offset f :=
    if offset ∈ f.refusedReads then (.error (.refused offset .busError), f)
    else match takeAnswer offset f.answers with
      | some (v, answers) => (.ok v, { f with answers })
      | none => (.ok ((f.cells.lookup offset).getD 0), f)
  write offset value f :=
    if offset ∈ f.refusedWrites then (.error (.refused offset .busError), f)
    else (.ok (), { f with cells := (offset, value) :: f.cells })

end RegisterFile

end AfuBench
