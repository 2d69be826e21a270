/-! # Hexadecimal digits

Numbers are written in lower case; either case is read. -/

namespace QuantumControl.Text

/-- The value of a hexadecimal digit. -/
def hexDigit? (c : Char) : Option Nat :=
  if '0' ≤ c ∧ c ≤ '9' then some (c.toNat - '0'.toNat)
  else if 'a' ≤ c ∧ c ≤ 'f' then some (c.toNat - 'a'.toNat + 10)
  else if 'A' ≤ c ∧ c ≤ 'F' then some (c.toNat - 'A'.toNat + 10)
  else none

/-- The hexadecimal digits of a number, at least one. -/
def hex (n : Nat) : String := String.ofList (Nat.toDigits 16 n)

end QuantumControl.Text
