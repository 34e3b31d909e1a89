import AfuBench.Channel.Atomic
import AfuBench.Channel.Line
import AfuBench.Console
import AfuBench.Files.Dump
import AfuBench.Files.Error
import AfuBench.Golden.Check

namespace AfuBench

structure Workspace where
  files : FileStore
  console : Console
  deriving DecidableEq, Repr

abbrev Tool := ExceptT ToolError (StateM Workspace)

namespace Tool

variable {α : Type}

def exec (p : Tool α) (files : FileStore) : Except ToolError α × Workspace :=
  p.run.run ⟨files, .empty⟩

def printLine (text : String) : Tool Unit :=
  modify fun w => { w with console := w.console.printLine text }

def orFail {ε : Type} (fail : ε → ToolError) (r : Except ε α) : Tool α :=
  match r with
  | .ok a => return a
  | .error e => throw (fail e)

/-- A directory can be opened like a dump; it fails only when it is read. -/
def dumpError (path : String) : FileError → ToolError
  | .isDirectory => .readDump .isDirectory
  | e => .openDump path e

def loadDump (path : String) (bytes : Nat) : Tool (List (List UInt64)) := do
  let words ← orFail .data (wordCount bytes)
  let content ← orFail (dumpError path) ((← get).files.read path)
  if content.length % bytes ≠ 0 then throw (.ragged content.length bytes)
  return Dump.decode words content

def writeDump (path : String) (vectors : List (List UInt64)) : Tool Unit := do
  let files ← orFail (.createDump path) ((← get).files.write path (Dump.encode vectors))
  modify fun w => { w with files }

def loadGolden (path : String) : Tool (List GoldenRecord) := do
  let content ← orFail (.openGolden path) ((← get).files.read path)
  match String.fromUTF8? ⟨content.toArray⟩ with
  | some text => orFail .golden (Golden.parse text)
  | none => throw (.openGolden path .notText)

def generate (bytes : Nat) (seed : UInt64) (count : Nat) (dump : Option String) :
    Tool UInt64 := do
  let words ← orFail .data (wordCount bytes)
  let hash ← orFail .data (expectedHash bytes seed count)
  printLine (goldenLine bytes seed count hash)
  if let some path := dump then
    writeDump path (vectors seed words count)
    printLine ("Wrote " ++ decimal count ++ " vectors to " ++ path)
  return hash

def firstMismatch (loaded generated : List (List UInt64)) : Option Nat :=
  ((loaded.zip generated).zipIdx.find? fun ((a, b), _) => a ≠ b).map (·.2)

def checkDump (path : String) (bytes : Nat) (seed : UInt64) : Tool Bool := do
  let loaded ← loadDump path bytes
  let words ← orFail .data (wordCount bytes)
  let actual := streamHash words loaded
  let expected ← orFail .data (expectedHash bytes seed loaded.length)
  printLine ("Vectors:  " ++ decimal loaded.length)
  printLine ("Hash:     0x" ++ hexWordFull actual)
  printLine ("Expected: 0x" ++ hexWordFull expected)
  if actual ≠ expected then
    if let some i := firstMismatch loaded (vectors seed words loaded.length) then
      printLine ("First mismatch at vector " ++ decimal i)
  return actual = expected

def loadWords (path : String) (bytes : Nat) : Tool (List UInt64) :=
  List.flatten <$> loadDump path bytes

def lineHash (path : String) (size : Nat) : Tool UInt32 := do
  if size = 0 then throw .emptyBurst
  let buf ← loadWords path 64
  let bursts := buf.length / Line.words / size
  let hash ← orFail .data (Line.readHash buf bursts size)
  printLine (decimal bursts ++ " bursts of " ++ decimal size ++ " lines: read hash 0x" ++
    hexPadded 8 hash.toNat)
  return hash

def checkWritten (path : String) (base : UInt64) (lines : Nat) : Tool Bool := do
  let buf ← loadWords path 64
  match ← orFail (.shortRegion path lines) (Line.checkWritten buf base lines) with
  | .pass =>
    printLine (decimal lines ++ " lines from IOVA 0x" ++ hexWord base ++ ": PASS")
    return true
  | .badLine i =>
    if i = lines then
      printLine ("FAIL: line " ++ decimal i ++ " past the end of the region was written")
    else
      printLine ("FAIL: line " ++ decimal i ++ " (IOVA 0x" ++ hexWord (base + UInt64.ofNat i) ++
        ")")
    return false

def sideName : Atomic.Side → String
  | .atomic => "atomic"
  | .writeBack => "write-back"

def mismatchLine (m : Atomic.Mismatch) : String :=
  sideName m.side ++ " [" ++ decimal m.index ++ "]: 0x" ++ hexWord m.actual ++ ", expected 0x" ++
    hexWord m.expected

def checkAtomic (path writeBack : String) (w : Atomic.Width) (updates : Nat) : Tool Bool := do
  let atomic ← loadWords path 8
  let returned ← loadWords writeBack 8
  let found ← orFail (.atomicCheck updates) (Atomic.check w atomic returned updates)
  found.forM fun m => printLine (mismatchLine m)
  printLine (decimal w.bits ++ "-bit atomics, " ++ decimal updates ++ " updates: " ++
    if found.isEmpty then "PASS" else "FAIL")
  return found.isEmpty

/-- Answers how many records do not match. The elapsed time, a line of its own before the count of
matches, is left out of the console. -/
def verify (path : String) : Tool Nat := do
  printLine ("Loading golden vectors from " ++ path ++ "...")
  let records ← loadGolden path
  printLine ("Loaded " ++ decimal records.length ++ " vectors.")
  let found ← orFail .data (Golden.mismatches records)
  found.forM fun m => printLine m.line
  printLine ("Matched: " ++ decimal (records.length - found.length) ++ "/" ++
    decimal records.length)
  return found.length

end Tool

end AfuBench
