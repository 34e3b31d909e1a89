import AfuBench.Golden.Record
import AfuBench.TestData.Checker

namespace AfuBench.Golden

structure Mismatch where
  record : GoldenRecord
  actual : UInt64
  deriving DecidableEq, Repr

def Mismatch.line (m : Mismatch) : String :=
  "line " ++ decimal m.record.line ++ ": bytes=" ++ decimal m.record.bytes ++ " seed=0x" ++
    hexWord m.record.seed ++ " count=" ++ decimal m.record.count ++ ": 0x" ++
    hexWordFull m.actual ++ ", expected 0x" ++ hexWordFull m.record.hash

def recompute (r : GoldenRecord) : Except DataError (Option Mismatch) :=
  (expectedHash r.bytes r.seed r.count).map fun actual =>
    if actual = r.hash then none else some ⟨r, actual⟩

def mismatches (rs : List GoldenRecord) : Except DataError (List Mismatch) :=
  (rs.mapM recompute).map (·.filterMap id)

end AfuBench.Golden
