import QuantumControl.Decimal.Shortest

/-! # Written decimals

Three written forms of a double: the plain form, which is always positional and has no fraction
unless it needs one; the list form, which marks every number as a fraction and turns to an exponent
for extreme magnitudes; and the form with a fixed number of places. -/

namespace QuantumControl.Decimal

/-- `n` zeros. -/
def zeros (n : Nat) : String := String.ofList (List.replicate n '0')

namespace Scientific

/-- Positional digits, with a point only if there is a fraction. -/
def positional (s : Scientific) : String :=
  let digits := toString s.coefficient
  if 0 ≤ s.exponent then
    if s.coefficient = 0 then "0" else digits ++ zeros s.exponent.toNat
  else
    let places := (-s.exponent).toNat
    if digits.length ≤ places then "0." ++ zeros (places - digits.length) ++ digits
    else
      let whole := digits.length - places
      String.ofList (digits.toList.take whole) ++ "." ++ String.ofList (digits.toList.drop whole)

/-- One leading digit, the rest as a fraction, then the exponent. -/
def exponential (s : Scientific) : String :=
  let mantissa := match (toString s.coefficient).toList with
    | [] => ""
    | [d] => String.ofList [d]
    | d :: rest => String.ofList (d :: '.' :: rest)
  mantissa ++ "e" ++ toString s.leading

end Scientific

/-- The sign a value carries in writing. -/
def signText (negative : Bool) : String := if negative then "-" else ""

/-- The plain form: positional, shortest, no fraction for whole numbers. -/
def plain (x : Float) : String :=
  match Binary.ofFloat x with
  | .nan => "NaN"
  | .infinite negative => signText negative ++ "inf"
  | .finite negative d => signText negative ++ d.shortest.positional

/-- The list form: positional from `1e-4` up to, but not including, `1e16`, and always with a
fraction; an exponent elsewhere. -/
def listed (x : Float) : String :=
  match Binary.ofFloat x with
  | .nan => "NaN"
  | .infinite negative => signText negative ++ "inf"
  | .finite negative d =>
      let s := d.shortest
      let body :=
        if s.coefficient ≠ 0 ∧ (s.leading < -4 ∨ 16 ≤ s.leading) then s.exponential
        else if s.exponent < 0 then s.positional
        else s.positional ++ ".0"
      signText negative ++ body

/-- The quotient rounded to the nearest whole number, a half to the even one. -/
def roundDiv (numerator denominator : Nat) : Nat :=
  let quotient := numerator / denominator
  let rest := numerator % denominator
  if denominator < 2 * rest ∨ (2 * rest = denominator ∧ quotient % 2 = 1) then quotient + 1
  else quotient

/-- The magnitude with exactly `places` digits after the point. -/
def Dyadic.rounded (d : Dyadic) (places : Nat) : String :=
  let unit := Nat.pow 10 places
  let scaled := roundDiv (d.fraction.1 * unit) d.fraction.2
  let whole := toString (scaled / unit)
  if places = 0 then whole
  else
    let rest := toString (scaled % unit)
    whole ++ "." ++ zeros (places - rest.length) ++ rest

/-- The form with exactly `places` digits after the point. -/
def fixed (places : Nat) (x : Float) : String :=
  match Binary.ofFloat x with
  | .nan => "NaN"
  | .infinite negative => signText negative ++ "inf"
  | .finite negative d => signText negative ++ d.rounded places

/-- The fixed form that also writes the sign of a number that is not negative. -/
def fixedSigned (places : Nat) (x : Float) : String :=
  match Binary.ofFloat x with
  | .nan => "NaN"
  | .infinite negative => (if negative then "-" else "+") ++ "inf"
  | .finite negative d => (if negative then "-" else "+") ++ d.rounded places

end QuantumControl.Decimal
