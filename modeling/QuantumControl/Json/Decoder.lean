import QuantumControl.Json.Document

/-! # Decoding documents

A decoder reads a typed value out of a document. A record is an object, whose unknown members are
ignored and whose known ones may not repeat, or an array of its fields in order. An alternative is
its name alone, or an object with its name as the only key. Parts that nothing asks for are never
looked into.

The decoders stand for those that a serialization library derives from the definition of a type, and
follow the rules that it documents for them: those above, that a field may be missing only if it
is optional or has a default, that whole numbers are checked against the range of their type, that
a double may be written as a whole number but not the other way round, and that null is neither. -/

namespace QuantumControl.Json

abbrev Decoder (α : Type) := Document → Option α

namespace Decoder

variable {α β : Type}

def bool : Decoder Bool
  | .bool b => some b
  | _ => none

def string : Decoder String
  | .string s => s
  | _ => none

/-- A whole number within bounds. -/
def int (low high : Int) : Decoder Int
  | .number (.int n) => if low ≤ n ∧ n ≤ high then some n else none
  | _ => none

def int64 : Decoder Int := int (-9223372036854775808) 9223372036854775807

/-- A number without sign below a bound. -/
def below (bound : Nat) : Decoder Nat := fun d => (int 0 (bound - 1) d).map Int.toNat

def word32 : Decoder UInt32 := fun d => (below UInt32.size d).map Nat.toUInt32

/-- A double; whole numbers are rounded to the nearest one. -/
def float : Decoder Float
  | .number (.int n) => some (Float.ofInt n)
  | .number (.float x) => some x
  | _ => none

/-- Null, or a value. -/
def optional (decode : Decoder α) : Decoder (Option α)
  | .null => some none
  | d => (decode d).map some

def list (decode : Decoder α) : Decoder (List α)
  | .array items => items.mapM decode
  | _ => none

def pair (first : Decoder α) (second : Decoder β) : Decoder (α × β)
  | .array [a, b] => do return (← first a, ← second b)
  | _ => none

/-- All members of an object in order, repeated keys included. -/
def members (decode : Decoder α) : Decoder (List (String × α))
  | .object ms => ms.mapM fun m => do return (← m.1, ← decode m.2)
  | _ => none

/-! ## Records -/

/-- The member of an object with a known key, unless the key is repeated. -/
def field? (ms : List (Option String × Document)) (name : String) : Option (Option Document) :=
  match ms.filter (·.1 = some name) with
  | [] => some none
  | [m] => some (some m.2)
  | _ => none

/-- The fields of a record by name; a field that the object lacks is none. -/
def fields (names : List String) : Decoder (List (Option Document))
  | .object ms => if ms.all (·.1.isSome) then names.mapM (field? ms) else none
  | .array items => if items.length = names.length then some (items.map some) else none
  | _ => none

def required (decode : Decoder α) (d : Option Document) : Option α := d.bind decode

/-- An optional field may be null or missing. -/
def absent (decode : Decoder α) : Option Document → Option (Option α)
  | none => some none
  | some d => optional decode d

/-! ## Alternatives -/

/-- The name of an alternative and its body. -/
def alternative : Decoder (String × Option Document)
  | .string s => do return (← s, none)
  | .object [(key, body)] => do return (← key, some body)
  | _ => none

/-- The body of an alternative without contents. -/
def noBody : Option Document → Option Unit
  | none | some .null => some ()
  | _ => none

end Decoder

end QuantumControl.Json
