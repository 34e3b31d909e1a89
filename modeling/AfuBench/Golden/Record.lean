import AfuBench.Digits

namespace AfuBench

structure GoldenRecord where
  bytes : Nat
  seed : UInt64
  count : Nat
  hash : UInt64
  /-- The line it stands on, counted from one. -/
  line : Nat
  deriving DecidableEq, Repr

def goldenLine (bytes : Nat) (seed : UInt64) (count : Nat) (hash : UInt64) : String :=
  "bytes=" ++ decimal bytes ++ " seed=0x" ++ hexWord seed ++ " count=" ++ decimal count ++
    " hash=0x" ++ hexWordFull hash

end AfuBench
