import QuantumControl.Decimal.Layout
import QuantumControl.Json.Value
import QuantumControl.Text.Hex

/-! # Compact JSON text

The compact form of the library that these modules stand for, as it documents it: no blanks, members
in the order of the object, short escapes where the standard has one and four lower-case digits for
the other controls, a double by the shortest decimal that reads back, and null for a double that is
not finite. -/

namespace QuantumControl.Json

/-- One character inside a string: quotes, backslashes and controls are escaped. -/
def escaped (c : Char) : String :=
  match c with
  | '"' => "\\\""
  | '\\' => "\\\\"
  | '\n' => "\\n"
  | '\r' => "\\r"
  | '\t' => "\\t"
  | '\x08' => "\\b"
  | '\x0c' => "\\f"
  | c =>
      if c.toNat < 0x10 then "\\u000" ++ Text.hex c.toNat
      else if c.toNat < 0x20 then "\\u00" ++ Text.hex c.toNat
      else String.singleton c

def stringText (s : String) : String := "\"" ++ String.join (s.toList.map escaped) ++ "\""

mutual

/-- The text of a value without blanks. -/
def compact : Json → String
  | .null => "null"
  | .bool b => if b then "true" else "false"
  | .int n => toString n
  | .float x => if x.isFinite then Decimal.listed x else "null"
  | .string s => stringText s
  | .array items => "[" ++ ",".intercalate (compactItems items) ++ "]"
  | .object members => "\x7b" ++ ",".intercalate (compactMembers members) ++ "\x7d"

def compactItems : List Json → List String
  | [] => []
  | v :: vs => compact v :: compactItems vs

def compactMembers : List (String × Json) → List String
  | [] => []
  | (key, v) :: rest => (stringText key ++ ":" ++ compact v) :: compactMembers rest

end

end QuantumControl.Json
