import QuantumControl.Table.Sorted

/-! # JSON values

Whole numbers and doubles are different values, also when they are numerically equal. The members
of an object are kept in ascending order of their keys, so that equal objects are equal lists.

This module and the other ones on JSON stand for a library outside of this project. Each says which
part of that library's documented behaviour it follows; here it is that a value has typed numbers,
compares them by type, and keeps one member per key. -/

namespace QuantumControl

inductive Json where
  | null
  | bool (b : Bool)
  | int (n : Int)
  | float (x : Float)
  | string (s : String)
  | array (items : List Json)
  | object (members : List (String × Json))
deriving Inhabited

namespace Json

/-! ## Equality -/

mutual

/-- Whether two values are equal; doubles are compared as numbers. -/
def beq : Json → Json → Bool
  | .null, .null => true
  | .bool a, .bool b => a == b
  | .int m, .int n => m == n
  | .float x, .float y => x == y
  | .string s, .string t => s == t
  | .array items, .array others => beqItems items others
  | .object members, .object others => beqMembers members others
  | _, _ => false

def beqItems : List Json → List Json → Bool
  | [], [] => true
  | v :: items, w :: others => beq v w && beqItems items others
  | _, _ => false

def beqMembers : List (String × Json) → List (String × Json) → Bool
  | [], [] => true
  | (key, v) :: members, (other, w) :: others =>
      key == other && beq v w && beqMembers members others
  | _, _ => false

end

instance : BEq Json := ⟨beq⟩

theorem beq_int (m n : Int) : (Json.int m == Json.int n) = (m == n) := rfl

/-- Only a whole number equals a whole number. -/
theorem int_beq_iff {n : Int} {v : Json} : Json.int n == v ↔ v = .int n := by
  cases v with
  | int m =>
      rw [beq_int, beq_iff_eq]
      exact ⟨fun same => congrArg Json.int same.symm, fun same => (Json.int.inj same).symm⟩
  | _ => exact ⟨nofun, nofun⟩

/-! ## Objects and optional values -/

/-- The object with the given members; of several for one key the last stays. -/
def ofMembers (members : List (String × Json)) : Json := .object (Sorted.ofList members)

/-- A finite double as a number, anything else as null. -/
def ofFloat (x : Float) : Json := if x.isFinite then .float x else .null

def ofOption {α : Type} (f : α → Json) : Option α → Json
  | some a => f a
  | none => .null

/-- The member of an object. -/
def member? (key : String) : Json → Option Json
  | .object members => (members.find? (·.1 = key)).map Prod.snd
  | _ => none

end Json

end QuantumControl
