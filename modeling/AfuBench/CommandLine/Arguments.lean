import AfuBench.Text.Number
/-!
The grammar of command arguments: long options with an attached or a following value, short
options, and flags, each at most once. A value is read where it stands, so that the first argument
that cannot be understood, or that asks for help, decides.
-/

namespace AfuBench.Arguments

inductive Form where
  | flag
  | text
  | narrow
  | wide
  | literal
  deriving DecidableEq, Repr

inductive Value where
  | flag
  | text (content : String)
  | number (n : Nat)
  | word (w : UInt64)
  deriving DecidableEq, Repr

structure OptionSpec where
  name : String
  short : Option Char
  form : Form
  deriving DecidableEq, Repr

def long (form : Form) (name : String) : OptionSpec :=
  ⟨name, none, form⟩

inductive Reply where
  | usage
  | help
  deriving DecidableEq, Repr

def unsigned? (limit : Nat) (text : String) : Option Nat :=
  let digits := match text.toList with
    | '+' :: rest => rest
    | cs => cs
  if digits ≠ [] ∧ digits.all Number.isDigit ∧ Number.value 10 digits < limit then
    some (Number.value 10 digits)
  else none

/-- A 32-bit number; a signed zero is taken for a zero. -/
def narrow? (text : String) : Option Nat :=
  match text.toList with
  | '-' :: digits =>
    if digits ≠ [] ∧ digits.all (· = '0') then some 0 else none
  | _ => unsigned? UInt32.size text

def wide? (text : String) : Option Nat :=
  unsigned? UInt64.size text

def literal? (text : String) : Option UInt64 :=
  Number.parse? text.toList

def Form.read? : Form → String → Option Value
  | .flag, _ => none
  | .text, s => some (.text s)
  | .narrow, s => (narrow? s).map .number
  | .wide, s => (wide? s).map .number
  | .literal, s => (literal? s).map .word

abbrev Given := List (String × Value)

def note (spec : OptionSpec) (value : Value) (given : Given) : Except Reply Given :=
  if (given.lookup spec.name).isSome then .error .usage else .ok ((spec.name, value) :: given)

def noteText (spec : OptionSpec) (text : List Char) (given : Given) : Except Reply Given :=
  match spec.form.read? (String.ofList text) with
  | some value => note spec value given
  | none => .error .usage

def looksLikeOption (arg : List Char) : Bool :=
  match arg with
  | '-' :: _ :: _ => true
  | _ => false

def cutLong (text : List Char) : String × Option (List Char) :=
  (String.ofList (text.takeWhile (· ≠ '=')), (text.dropWhile (· ≠ '=')).tail?)

def cutShort : List Char → Option (List Char)
  | [] => none
  | '=' :: value => some value
  | value => some value

/-- Reads an argument as an option and the value attached to it. Help takes no value; as a short
option it is answered before anything attached to it. -/
def option (specs : List OptionSpec) (arg : List Char) :
    Except Reply (OptionSpec × Option (List Char)) :=
  match arg with
  | '-' :: '-' :: text =>
    let (name, attached) := cutLong text
    if name = "help" then .error (if attached.isSome then .usage else .help)
    else match specs.find? (·.name = name) with
      | some spec => .ok (spec, attached)
      | none => .error .usage
  | '-' :: c :: rest =>
    if c = 'h' then .error .help
    else match specs.find? (·.short = some c) with
      | some spec => .ok (spec, cutShort rest)
      | none => .error .usage
  | _ => .error .usage

def scan (specs : List OptionSpec) : List String → Given → Except Reply Given
  | [], given => .ok given
  | arg :: rest, given =>
    if arg = "--" then if rest.isEmpty then .ok given else .error .usage
    else
      match option specs arg.toList with
      | .error e => .error e
      | .ok (spec, some text) => (noteText spec text given).bind (scan specs rest)
      | .ok (spec, none) =>
        if spec.form = .flag then (note spec .flag given).bind (scan specs rest)
        else
          match rest with
          | [] => .error .usage
          | text :: rest =>
            if looksLikeOption text.toList then .error .usage
            else (noteText spec text.toList given).bind (scan specs rest)

namespace Given

def isGiven (given : Given) (name : String) : Bool :=
  (given.lookup name).isSome

def text? (given : Given) (name : String) : Option String :=
  match given.lookup name with
  | some (.text content) => some content
  | _ => none

def number? (given : Given) (name : String) : Option Nat :=
  match given.lookup name with
  | some (.number n) => some n
  | _ => none

def word? (given : Given) (name : String) : Option UInt64 :=
  match given.lookup name with
  | some (.word w) => some w
  | _ => none

def required (given : Given) (name : String) : Except Reply String :=
  match given.text? name with
  | some content => .ok content
  | none => .error .usage

end Given

end AfuBench.Arguments
