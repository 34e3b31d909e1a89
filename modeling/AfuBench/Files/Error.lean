import AfuBench.Bench.Error
import AfuBench.Files.Store
import AfuBench.Golden.Parser

namespace AfuBench

inductive ToolError where
  | data (e : DataError)
  | bench (e : BenchError)
  | golden (e : Golden.LineError)
  | openDump (path : String) (e : FileError)
  | readDump (e : FileError)
  | createDump (path : String) (e : FileError)
  | openGolden (path : String) (e : FileError)
  | ragged (held vectorBytes : Nat)
  | emptyBurst
  | shortRegion (path : String) (lines : Nat) (e : DataError)
  | atomicCheck (updates : Nat) (e : DataError)
  | atomicWidth (bits : Nat)
  | noWriteBack
  | noLineCount
  | atomicFailed
  | linesFailed
  | dumpDiffers
  | goldenFailed (count : Nat)
  | runsFailed (count : Nat)
  deriving DecidableEq, Repr

def ToolError.messages : ToolError → List String
  | .data e => [e.message]
  | .bench e => [e.message]
  | .golden e => [e.message]
  | .openDump path e => ["Failed to open dump " ++ path, e.message]
  | .readDump e => [e.message]
  | .createDump path e => ["Failed to create dump " ++ path, e.message]
  | .openGolden path e => ["Failed to open golden file " ++ path, e.message]
  | .ragged held vectorBytes =>
    ["dump holds " ++ decimal held ++ " bytes, not a whole number of " ++ decimal vectorBytes ++
      "-byte vectors"]
  | .emptyBurst => ["burst size must be at least 1"]
  | .shortRegion path lines e =>
    [path ++ " is too short for " ++ decimal lines ++ " lines", e.message]
  | .atomicCheck updates e => ["cannot check " ++ decimal updates ++ " atomic updates", e.message]
  | .atomicWidth bits => ["--atomic must be 32 or 64, got " ++ decimal bits]
  | .noWriteBack => ["--atomic needs --wb"]
  | .noLineCount => ["--iova needs --num-lines"]
  | .atomicFailed => ["atomic buffers check failed"]
  | .linesFailed => ["written lines check failed"]
  | .dumpDiffers => ["dump does not match the generator"]
  | .goldenFailed count => [decimal count ++ " golden vectors mismatched"]
  | .runsFailed count => [decimal count ++ " local memory runs failed"]

end AfuBench
