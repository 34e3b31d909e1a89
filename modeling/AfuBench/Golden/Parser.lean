import AfuBench.Golden.Record
import AfuBench.Text.Number
import AfuBench.Text.Quoted
/-!
Reading golden records: one record a line, its fields in any order, `#` comments and empty lines
skipped.
-/

namespace AfuBench.Golden

inductive Stop where
  | letter
  | equals
  | digit
  | value
  | ending
  deriving DecidableEq, Repr

def Stop.name : Stop → String
  | .letter => "Alpha"
  | .equals => "Char"
  | .digit => "Digit"
  | .value => "MapRes"
  | .ending => "Eof"

inductive Key where
  | bytes
  | seed
  | count
  | hash
  deriving DecidableEq, Repr

def Key.name : Key → String
  | .bytes => "bytes"
  | .seed => "seed"
  | .count => "count"
  | .hash => "hash"

def Key.all : List Key := [.bytes, .seed, .count, .hash]

def Key.ofName? (name : List Char) : Option Key :=
  all.find? fun key => key.name.toList = name

inductive Fault where
  | malformed (rest : List Char) (stop : Stop)
  | unknown (name : List Char)
  | duplicate (key : Key)
  | missing (key : Key)
  deriving DecidableEq, Repr

def Fault.message : Fault → String
  | .malformed rest stop =>
    "malformed record: Error(Error \x7b input: " ++ Text.quoted rest ++ ", code: " ++ stop.name ++
      " \x7d)"
  | .unknown name => "unknown field '" ++ String.ofList name ++ "'"
  | .duplicate key => "duplicate field '" ++ key.name ++ "'"
  | .missing key => "missing field '" ++ key.name ++ "'"

structure LineError where
  line : Nat
  fault : Fault
  deriving DecidableEq, Repr

def LineError.message (e : LineError) : String :=
  "line " ++ decimal e.line ++ ": " ++ e.fault.message

structure Field where
  name : List Char
  value : UInt64
  deriving DecidableEq, Repr

def isLetter (c : Char) : Bool :=
  'a' ≤ c && c ≤ 'z' || 'A' ≤ c && c ≤ 'Z'

def fieldValue (cs : List Char) : Except (List Char × Stop) (UInt64 × List Char) :=
  match Number.literal cs with
  | .ok found => .ok found
  | .error .noDigit => .error (cs, .digit)
  | .error .tooLarge => .error (cs, .value)

def field (cs : List Char) : Except (List Char × Stop) (Field × List Char) :=
  let name := cs.takeWhile isLetter
  if name = [] then .error (cs, .letter)
  else match cs.dropWhile isLetter with
    | '=' :: rest => (fieldValue rest).map fun (value, rest) => (⟨name, value⟩, rest)
    | rest => .error (rest, .equals)

/-- The further fields of a line. They end before the first separator that no field follows. -/
def moreFields : Nat → List Char → List Field × List Char
  | 0, cs => ([], cs)
  | steps + 1, cs =>
    if cs.takeWhile Text.isSpace = [] then ([], cs)
    else match field (cs.dropWhile Text.isSpace) with
      | .error _ => ([], cs)
      | .ok (f, rest) =>
        let (fs, rest) := moreFields steps rest
        (f :: fs, rest)

/-- All fields of a line. Every field takes up text, so the length of the text bounds their
number. -/
def fields (cs : List Char) : Except (List Char × Stop) (List Field) := do
  let (f, rest) ← field (cs.dropWhile Text.isSpace)
  let (fs, rest) := moreFields rest.length rest
  match rest.dropWhile Text.isSpace with
  | [] => return f :: fs
  | rest => throw (rest, .ending)

def assign : List Field → List (Key × UInt64) → Except Fault (List (Key × UInt64))
  | [], found => .ok found
  | f :: fs, found =>
    match Key.ofName? f.name with
    | none => .error (.unknown f.name)
    | some key =>
      if (found.lookup key).isSome then .error (.duplicate key)
      else assign fs ((key, f.value) :: found)

def require (found : List (Key × UInt64)) (key : Key) : Except Fault UInt64 :=
  match found.lookup key with
  | some v => .ok v
  | none => .error (.missing key)

def ofFields (fs : List Field) (line : Nat) : Except Fault GoldenRecord := do
  let found ← assign fs []
  let bytes ← require found .bytes
  let seed ← require found .seed
  let count ← require found .count
  let hash ← require found .hash
  return ⟨bytes.toNat, seed, count.toNat, hash, line⟩

def parseLine (cs : List Char) (line : Nat) : Except LineError GoldenRecord :=
  match fields cs with
  | .error (rest, stop) => .error ⟨line, .malformed rest stop⟩
  | .ok fs =>
    match ofFields fs line with
    | .error fault => .error ⟨line, fault⟩
    | .ok r => .ok r

def body (cs : List Char) : List Char :=
  Text.trim (cs.takeWhile (· ≠ '#'))

def bodies (text : List Char) : List (List Char × Nat) :=
  ((text.splitOn '\n').zipIdx 1).filterMap fun (cs, line) =>
    if body cs = [] then none else some (body cs, line)

def parseChars (text : List Char) : Except LineError (List GoldenRecord) :=
  (bodies text).mapM fun (cs, line) => parseLine cs line

def parse (text : String) : Except LineError (List GoldenRecord) :=
  parseChars text.toList

end AfuBench.Golden
