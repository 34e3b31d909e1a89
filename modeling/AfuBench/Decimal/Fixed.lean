import AfuBench.Digits
/-!
Binary floating-point numbers with a fixed number of decimal places: the exact value, rounded to the
nearest decimal, a tie to the even neighbour.
-/

namespace AfuBench.Decimal

/-- The quotient rounded to the nearest number, a tie to the even one. -/
def roundQuotient (num den : Nat) : Nat :=
  let q := num / den
  let r := num % den
  if den < 2 * r ∨ (2 * r = den ∧ q % 2 = 1) then q + 1 else q

/-- A finite number without its sign: `mantissa * 2 ^ up / 2 ^ down`. -/
structure Magnitude where
  mantissa : Nat
  up : Nat
  down : Nat
  deriving DecidableEq, Repr

def Magnitude.scaled (m : Magnitude) (places : Nat) : Nat :=
  roundQuotient (m.mantissa * Nat.pow 2 m.up * Nat.pow 10 places) (Nat.pow 2 m.down)

def placeText (places units : Nat) : String :=
  decimal (units / Nat.pow 10 places) ++ "." ++
    padLeft places '0' (decimal (units % Nat.pow 10 places))

/-- The exponent field counts from 1075 for a mantissa taken as an integer; a field of zero has no
leading bit. -/
def Magnitude.ofFields (exponent fraction : Nat) : Magnitude :=
  let mantissa := if exponent = 0 then fraction else 0x10000000000000 + fraction
  let exponent := max exponent 1
  ⟨mantissa, exponent - 1075, 1075 - exponent⟩

def fixedBits (places : Nat) (bits : UInt64) : String :=
  let exponent := (bits >>> 52 &&& 0x7ff).toNat
  let fraction := (bits &&& 0xfffffffffffff).toNat
  let sign := if bits >>> 63 = 1 then "-" else ""
  if exponent = 0x7ff then
    if fraction = 0 then sign ++ "inf" else "NaN"
  else sign ++ placeText places ((Magnitude.ofFields exponent fraction).scaled places)

def fixed (places : Nat) (x : Float) : String :=
  fixedBits places x.toBits

end AfuBench.Decimal
