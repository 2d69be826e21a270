import QuantumControl.Text.Hex
import QuantumControl.Text.Printable

/-! # Quoted text

Text between double quotes. Quotes and backslashes are escaped, the common controls have letters,
and any other character that is not printable is written by its code point. -/

namespace QuantumControl.Text

/-- One character inside the quotes. -/
def quotedChar (c : Char) : String :=
  match c with
  | '"' => "\\\""
  | '\\' => "\\\\"
  | '\n' => "\\n"
  | '\r' => "\\r"
  | '\t' => "\\t"
  | '\x00' => "\\0"
  | c => if isPrintable c then String.singleton c else "\\u\x7b" ++ hex c.toNat ++ "\x7d"

def quoted (s : String) : String :=
  "\"" ++ String.join (s.toList.map quotedChar) ++ "\""

/-- A bracketed list of items already written. -/
def bracketed (items : List String) : String := "[" ++ ", ".intercalate items ++ "]"

/-- A bracketed list of quoted texts. -/
def quotedList (items : List String) : String := bracketed (items.map quoted)

end QuantumControl.Text
