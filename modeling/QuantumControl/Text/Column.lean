/-! # Columns

Text padded with spaces to a least width, counted in characters. -/

namespace QuantumControl.Text

/-- `n` spaces. -/
def spaces (n : Nat) : String := String.ofList (List.replicate n ' ')

/-- Padded on the left, so that right ends line up. -/
def alignRight (width : Nat) (s : String) : String := spaces (width - s.length) ++ s

/-- Padded on the right, so that left ends line up. -/
def alignLeft (width : Nat) (s : String) : String := s ++ spaces (width - s.length)

end QuantumControl.Text
