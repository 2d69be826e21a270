/-! # Doubles as dyadic rationals

A finite double is `± mantissa * 2 ^ exponent`. The reals that round to it form an interval whose
lower half is only half as wide when the mantissa is the least one of its exponent. -/

namespace QuantumControl.Decimal

/-- The magnitude of a finite double. -/
structure Dyadic where
  mantissa : Nat
  exponent : Int
  /-- The next smaller double is only half as far away as the next larger one. -/
  narrowBelow : Bool
deriving DecidableEq, Repr

/-- A double taken apart. -/
inductive Binary where
  | nan
  | infinite (negative : Bool)
  | finite (negative : Bool) (magnitude : Dyadic)
deriving DecidableEq, Repr

namespace Binary

/-- Take the bits of a double apart: sign, eleven exponent bits, fifty-two fraction bits. -/
def ofBits (bits : UInt64) : Binary :=
  let b := bits.toNat
  let fraction := b % (1 <<< 52)
  let exponent := (b >>> 52) % 2048
  let negative := b >>> 63 == 1
  if exponent == 2047 then
    if fraction == 0 then .infinite negative else .nan
  else if exponent == 0 then
    .finite negative ⟨fraction, -1074, false⟩
  else
    .finite negative
      ⟨fraction + (1 <<< 52), (exponent : Int) - 1075, fraction == 0 && exponent != 1⟩

def ofFloat (x : Float) : Binary := ofBits x.toBits

end Binary

namespace Dyadic

/-- A quarter of the step between neighbours, `2 ^ (exponent - 2)`, as numerator and denominator. -/
def unit (d : Dyadic) : Nat × Nat :=
  let q := d.exponent - 2
  (1 <<< q.toNat, 1 <<< (-q).toNat)

/-- Numerator and denominator of the value. -/
def fraction (d : Dyadic) : Nat × Nat :=
  (4 * d.mantissa * d.unit.1, d.unit.2)

end Dyadic

end QuantumControl.Decimal
