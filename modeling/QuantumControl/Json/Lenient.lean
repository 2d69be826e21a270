import QuantumControl.Decimal.Reader
import QuantumControl.Json.Value

/-! # Lenient reading of values

Views of a value that fall back to a default where the value is of another form. -/

namespace QuantumControl.Json

/-- A member of an object, or null. -/
def field (j : Json) (key : String) : Json := (j.member? key).getD .null

def string? : Json → Option String
  | .string s => some s
  | _ => none

def text (j : Json) : String := j.string?.getD ""

def whole : Json → Int
  | .int n => n
  | _ => 0

def truth : Json → Bool
  | .bool b => b
  | _ => false

def items : Json → List Json
  | .array vs => vs
  | _ => []

/-- A double: a number, or a text that holds a decimal. -/
def double : Json → Float
  | .int n => Float.ofInt n
  | .float x => x
  | .string s => (Decimal.read? s).getD 0
  | _ => 0

mutual

/-- The value with every double rewritten. -/
def mapFloats (f : Float → Json) : Json → Json
  | .float x => f x
  | .array vs => .array (mapFloatsItems f vs)
  | .object ms => .object (mapFloatsMembers f ms)
  | j => j

def mapFloatsItems (f : Float → Json) : List Json → List Json
  | [] => []
  | v :: vs => mapFloats f v :: mapFloatsItems f vs

def mapFloatsMembers (f : Float → Json) : List (String × Json) → List (String × Json)
  | [] => []
  | (k, v) :: ms => (k, mapFloats f v) :: mapFloatsMembers f ms

end

end QuantumControl.Json
