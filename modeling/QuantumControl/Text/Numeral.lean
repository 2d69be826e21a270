import QuantumControl.Decimal.Reader

/-! # Whole numbers in text

A whole number of a bounded kind is written with at least one ASCII digit after an optional plus
sign; leading zeros are allowed. Two faults are told apart: a character that is no digit, found
before the number is known to be too large, and a number out of range. -/

namespace QuantumControl.Text

/-- Why a text is no whole number of the wanted range. -/
inductive NumeralFault where
  | empty
  | notADigit
  | tooLarge
deriving DecidableEq, Repr

namespace NumeralFault

def message : NumeralFault → String
  | empty => "cannot parse integer from empty string"
  | notADigit => "invalid digit found in string"
  | tooLarge => "number too large to fit in target type"

end NumeralFault

/-- Read digits onto `value`; the first fault from the left is reported. -/
def numeralFrom (limit value : Nat) : List Char → Except NumeralFault Nat
  | [] => .ok value
  | c :: cs =>
      if c.isDigit then
        let value := 10 * value + (c.toNat - '0'.toNat)
        if limit < value then .error .tooLarge else numeralFrom limit value cs
      else .error .notADigit

/-- Read a whole number of at most `limit`. -/
def numeral (limit : Nat) : List Char → Except NumeralFault Nat
  | [] => .error .empty
  | ['+'] | ['-'] => .error .notADigit
  | '+' :: digits => numeralFrom limit 0 digits
  | digits => numeralFrom limit 0 digits

/-- Read a 32-bit word. -/
def word32 (cs : List Char) : Except NumeralFault UInt32 :=
  (numeral (UInt32.size - 1) cs).map Nat.toUInt32

end QuantumControl.Text
