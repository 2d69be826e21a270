import QuantumControl.Decimal.Reader
import QuantumControl.Json.Value

/-! # JSON numbers

A number without fraction and exponent that fits a signed or an unsigned 64-bit word is whole; every
other number is a double. A double is read through a 64-bit significand: digits after the point that
would overflow it are dropped, whole digits that would are counted in the exponent, and the
significand is then multiplied or divided by a power of ten in double arithmetic.

These are the numbers of the library that this stands for, with its default settings: signed,
unsigned and double, where a double may be off by a unit in the last place, and one that is too
large is an error. -/

namespace QuantumControl.Json

/-- A number as it is spelled. -/
structure Numeral where
  negative : Bool
  whole : List Char
  fraction : List Char
  exponent : Option (Bool × List Char)

/-- A number as it is understood. -/
inductive Number where
  | int (n : Int)
  | float (x : Float)
  | outOfRange

namespace Numeral

/-- Read a number's whole spelling. -/
def ofChars? (cs : List Char) : Option Numeral :=
  let (negative, cs) := match cs with
    | '-' :: rest => (true, rest)
    | rest => (false, rest)
  let whole := cs.takeWhile Char.isDigit
  let wholeFits := match whole with
    | [] => false
    | ['0'] => true
    | d :: _ => d != '0'
  if !wholeFits then none
  else
    let exponentPart (fraction : List Char) : List Char → Option Numeral
      | [] => some ⟨negative, whole, fraction, none⟩
      | mark :: rest =>
          let (down, digits) := match rest with
            | '-' :: ds => (true, ds)
            | '+' :: ds => (false, ds)
            | ds => (false, ds)
          if (mark = 'e' ∨ mark = 'E') ∧ digits ≠ [] ∧ digits.all Char.isDigit then
            some ⟨negative, whole, fraction, some (down, digits)⟩
          else none
    match cs.dropWhile Char.isDigit with
    | '.' :: rest =>
        let fraction := rest.takeWhile Char.isDigit
        if fraction.isEmpty then none
        else exponentPart fraction (rest.dropWhile Char.isDigit)
    | rest => exponentPart [] rest

/-- The largest significand. -/
def largest : Nat := UInt64.size - 1

/-- The whole digits that fit the significand, and how many do not. -/
def wholePart (value : Nat) : List Char → Nat × Nat
  | [] => (value, 0)
  | c :: cs =>
      let next := 10 * value + (c.toNat - '0'.toNat)
      if largest < next then (value, cs.length + 1) else wholePart next cs

/-- The significand continued by the fraction's digits that fit, and how many of them do. -/
def fractionPart (value used : Nat) : List Char → Nat × Nat
  | [] => (value, used)
  | c :: cs =>
      let next := 10 * value + (c.toNat - '0'.toNat)
      if largest < next then (value, used) else fractionPart next (used + 1) cs

/-- Scale by a power of ten up to `10 ^ 308`; larger divisions are made in steps. -/
def scale (x : Float) (exponent : Int) : Option Float :=
  if exponent.natAbs ≤ 308 then
    let power := Float.ofScientific 1 false exponent.natAbs
    if 0 ≤ exponent then
      let y := x * power
      if y.isInf then none else some y
    else some (x / power)
  else if x == 0 then some x
  else if 0 ≤ exponent then none
  else scale (x / Float.ofScientific 1 false 308) (exponent + 308)
termination_by exponent.natAbs
decreasing_by omega

/-- The largest exponent that is written out; beyond it only zero is in range upwards. -/
def largestExponent : Nat := 2147483647

def signed (negative : Bool) (x : Float) : Float := if negative then -x else x

def toFloat? (n : Numeral) : Option Float :=
  let (whole, dropped) := wholePart 0 n.whole
  let (significand, used) := fractionPart whole 0 n.fraction
  let exponent : Int := (dropped : Int) - used
  match n.exponent with
  | none => (scale (Float.ofNat significand) exponent).map (signed n.negative)
  | some (down, digits) =>
      let written := Decimal.digitsValue digits
      if largestExponent < written then
        if significand ≠ 0 ∧ !down then none else some (signed n.negative 0)
      else
        let exponent := if down then exponent - written else exponent + written
        (scale (Float.ofNat significand) exponent).map (signed n.negative)

/-- A whole spelling is a whole number if it fits a word; a negative zero is a double. -/
def toNumber (n : Numeral) : Number :=
  let value := Decimal.digitsValue n.whole
  let isWhole := n.fraction.isEmpty && n.exponent.isNone &&
    if n.negative then value != 0 && value ≤ UInt64.size / 2 else value < UInt64.size
  if isWhole then .int (if n.negative then -(value : Int) else value)
  else match n.toFloat? with
  | some x => .float x
  | none => .outOfRange

end Numeral

end QuantumControl.Json
