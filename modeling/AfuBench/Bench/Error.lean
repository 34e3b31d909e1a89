import AfuBench.Bus.Basic

namespace AfuBench

inductive BenchError where
  /-- An engine or register outside the window; global registers count as engine 0. -/
  | registerIndex (eng reg : Nat)
  | access (e : AccessError)
  | hang (polls : Nat)
  | noTraffic (eng : Nat)
  | dataWidth (bytes : Nat)
  | data (e : DataError)
  deriving DecidableEq, Repr

def BenchError.message : BenchError → String
  | .registerIndex eng reg =>
    "CSR index out of range: engine " ++ decimal eng ++ ", register " ++ decimal reg
  | .access (.refused offset reason) =>
    "MMIO access at offset 0x" ++ hex offset ++ " failed: " ++ reason.message
  | .access (.data e) => e.message
  | .hang polls => "engine hang after " ++ decimal polls ++ " polls"
  | .noTraffic eng => "no memory traffic detected on engine " ++ decimal eng
  | .dataWidth bytes =>
    "invalid configuration: data width " ++ decimal bytes ++
      " bytes must be a non-zero multiple of 8 below 256"
  | .data e => e.message

end AfuBench
