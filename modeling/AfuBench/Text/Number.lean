import AfuBench.Text.Blank
/-!
Numeric literals of 64 bits: decimal digits, or `0x` and hexadecimal digits with underscores
between them.
-/

namespace AfuBench.Number

def limit : Nat := UInt64.size

def digitValue (c : Char) : Nat :=
  if '0' ≤ c ∧ c ≤ '9' then c.toNat - 48
  else if 'a' ≤ c ∧ c ≤ 'f' then c.toNat - 87
  else c.toNat - 55

def isDigit (c : Char) : Bool :=
  '0' ≤ c && c ≤ '9'

def isHexDigit (c : Char) : Bool :=
  isDigit c || 'a' ≤ c && c ≤ 'f' || 'A' ≤ c && c ≤ 'F'

def isHexMark (c : Char) : Bool :=
  isHexDigit c || c == '_'

def value (base : Nat) (cs : List Char) : Nat :=
  cs.foldl (fun n c => base * n + digitValue c) 0

def hexValue? (run : List Char) : Option UInt64 :=
  let digits := run.filter isHexDigit
  if digits ≠ [] ∧ value 16 digits < limit then some (UInt64.ofNat (value 16 digits)) else none

def hexLiteral? : List Char → Option (UInt64 × List Char)
  | '0' :: x :: cs =>
    if x = 'x' ∨ x = 'X' then
      (hexValue? (cs.takeWhile isHexMark)).map fun v => (v, cs.dropWhile isHexMark)
    else none
  | _ => none

inductive Fault where
  | noDigit
  | tooLarge
  deriving DecidableEq, Repr

def decimalLiteral (cs : List Char) : Except Fault (UInt64 × List Char) :=
  let digits := cs.takeWhile isDigit
  if digits = [] then .error .noDigit
  else if value 10 digits < limit then
    .ok (UInt64.ofNat (value 10 digits), cs.dropWhile isDigit)
  else .error .tooLarge

/-- A literal at the front of a text. What cannot be read as a hexadecimal literal is read as a
decimal one, so `0x` by itself is a zero with an `x` after it. -/
def literal (cs : List Char) : Except Fault (UInt64 × List Char) :=
  match hexLiteral? cs with
  | some found => .ok found
  | none => decimalLiteral cs

def parse? (cs : List Char) : Option UInt64 :=
  match literal (Text.trim cs) with
  | .ok (v, []) => some v
  | _ => none

def invalidMessage (text : String) : String :=
  "invalid number '" ++ text ++ "'"

end AfuBench.Number
