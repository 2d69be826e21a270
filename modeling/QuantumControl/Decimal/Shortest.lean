import QuantumControl.Decimal.Binary

/-! # The shortest decimal of a double

Among the decimals that read back as a given double, the one with the fewest digits, and of those
the nearest; of two equally near ones the larger. -/

namespace QuantumControl.Decimal

/-- The decimal `coefficient * 10 ^ exponent`. -/
structure Scientific where
  coefficient : Nat
  exponent : Int
deriving DecidableEq, Repr

/-- The number of decimal digits, with none for zero. -/
def digitCount (n : Nat) : Nat :=
  if n = 0 then 0 else digitCount (n / 10) + 1
termination_by n
decreasing_by omega

/-- The exponent of the leading decimal digit of a positive fraction. -/
def leadingExponent (numerator denominator : Nat) : Int :=
  if denominator ≤ numerator then
    (digitCount (numerator / denominator) : Int) - 1
  else
    -(digitCount ((denominator - 1) / numerator) : Int)

namespace Scientific

/-- Drop trailing zeros of the coefficient, at most `fuel` of them. -/
def trim : Nat → Scientific → Scientific
  | 0, s => s
  | fuel + 1, s =>
      if s.coefficient != 0 && s.coefficient % 10 == 0 then
        trim fuel ⟨s.coefficient / 10, s.exponent + 1⟩
      else s

/-- The exponent of the leading digit. -/
def leading (s : Scientific) : Int := s.exponent + digitCount s.coefficient - 1

end Scientific

namespace Dyadic

/-- The decimal on the grid `10 ^ place` that reads back as the double, if one of the two
neighbours of the value does: the nearer one, or the upper one if both are equally near. -/
def onGrid? (d : Dyadic) (place : Int) : Option Scientific :=
  let (scale, denominator) := d.unit
  -- All four quantities below are numerators over `denominator * 10 ^ max (-place) 0`.
  let lift := Nat.pow 10 (-place).toNat
  let step := denominator * Nat.pow 10 place.toNat
  let value := 4 * d.mantissa * scale * lift
  let upperEnd := (4 * d.mantissa + 2) * scale * lift
  let lowerEnd := (4 * d.mantissa - if d.narrowBelow then 1 else 2) * scale * lift
  let inside (n : Nat) : Bool :=
    if d.mantissa % 2 == 0 then lowerEnd ≤ n && n ≤ upperEnd else lowerEnd < n && n < upperEnd
  let floor := value / step
  let below := floor * step
  let above := (floor + 1) * step
  match inside below && floor != 0, inside above with
  | true, true => some ⟨if value - below < above - value then floor else floor + 1, place⟩
  | true, false => some ⟨floor, place⟩
  | false, true => some ⟨floor + 1, place⟩
  | false, false => none

/-- The first hit among grids of growing fineness. -/
def firstHit (d : Dyadic) (place : Int) : Nat → Scientific
  | 0 => (d.onGrid? place).getD ⟨0, 0⟩
  | n + 1 => (d.onGrid? place).getD (firstHit d (place - 1) n)

/-- The shortest decimal that reads back; seventeen digits always suffice. -/
def shortest (d : Dyadic) : Scientific :=
  if d.mantissa = 0 then ⟨0, 0⟩
  else
    let lead := leadingExponent d.fraction.1 d.fraction.2
    Scientific.trim 20 (d.firstHit lead 17)

end Dyadic

end QuantumControl.Decimal
