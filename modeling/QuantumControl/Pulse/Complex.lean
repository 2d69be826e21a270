import QuantumControl.Decimal.Layout

/-! # Complex amplitudes

The numbers stand for those of a library outside of this project, and follow what it documents: two
doubles that are compared part by part, a text with the sign of the imaginary part between the
parts, and a modulus that is the hypotenuse of the parts, without overflow or underflow on the way.
The library leaves the hypotenuse to the mathematical functions of the platform, whose documented
bound is one unit in the last place; `hypotenuse` has the steps of such a function. -/

namespace QuantumControl.Pulse

/-- A complex number in Cartesian form. -/
structure Complex where
  re : Float
  im : Float
deriving BEq

namespace Complex

instance : Inhabited Complex := ⟨0, 0⟩

def isFinite (z : Complex) : Bool := z.re.isFinite && z.im.isFinite

/-- The hypotenuse over two positive legs, the longer one first: the root `h` of the sum of squares,
less one Newton step. The residue `h² - a² - b²` is taken from the distance of `h` to one leg, the
shorter leg if `h` is at most twice as long, so that the leading terms cancel before they are
rounded. The squares have to be in range. -/
def hypotenuse (a b : Float) : Float :=
  let h := (a * a + b * b).sqrt
  if h ≤ 2 * b then
    let d := h - b
    h - (a * (2 * d - a) + (d - 2 * (a - b)) * d) / (2 * h)
  else
    let d := h - a
    h - (2 * d * (a - 2 * b) + ((4 * d - b) * b + d * d)) / (2 * h)

/-- A power of two as a double. -/
def twoPow (n : Nat) : Float := Float.ofNat (1 <<< n)

/-- A power of two that brings two legs, the longer one first, so near to one that neither their
squares nor the residue leave the range. -/
def legScale (a b : Float) : Float :=
  if twoPow 511 < a then 1 / twoPow 600 else if b * twoPow 459 < 1 then twoPow 600 else 1

/-- The modulus, infinite as soon as one part is. A part that is at least `2^54` times as long as
the other one alone decides; any other two are the legs of a right triangle. The result is within
one unit of the last place, and not always the nearest double. -/
def modulus (z : Complex) : Float :=
  let x := z.re.abs
  let y := z.im.abs
  let a := if x < y then y else x
  let b := if x < y then x else y
  if x.isInf then x
  else if y.isInf then y
  else if b * twoPow 54 ≤ a then a + b
  else hypotenuse (a * legScale a b) (b * legScale a b) / legScale a b

/-- Whether the modulus is larger than one. -/
def exceedsUnit (z : Complex) : Bool := decide (1 < z.modulus)

/-- The real part, then the imaginary part with its sign between them. -/
def text (z : Complex) : String :=
  let (sign, im) := if z.im < 0 then ("-", -z.im) else ("+", z.im)
  Decimal.plain z.re ++ sign ++ Decimal.plain im ++ "i"

instance : ToString Complex := ⟨text⟩

end Complex

end QuantumControl.Pulse
