import QuantumControl.Json.Decoder
import QuantumControl.Pipeline.Error
import QuantumControl.Table

/-! # Property sets

What the tasks of a run share: values under string keys, and typed slots that hold at most one
value of their type each, for what is not plain data. -/

namespace QuantumControl.Pipeline

/-- The types that have a slot. The slots are a map that is keyed by types and open: a value of any
type may be put into the slot of its type. These two types stand for all of them; nothing is assumed
of slots but that their types can be told apart. -/
inductive SlotType where
  | integers
  | text
deriving DecidableEq, Repr

/-- The type of the value in a slot. -/
abbrev SlotType.Value : SlotType → Type
  | integers => List Int
  | text => String

structure PropertySet where
  values : Table String Json
  /-- At most one value for each type of the open family that `SlotType` stands for. -/
  slots : (t : SlotType) → Option t.Value

namespace PropertySet

def empty : PropertySet := ⟨Table.empty, fun _ => none⟩

instance : Inhabited PropertySet := ⟨empty⟩

def get? (p : PropertySet) (key : String) : Option Json := p.values.get? key

def contains (p : PropertySet) (key : String) : Bool := p.values.contains key

def set (p : PropertySet) (key : String) (value : Json) : PropertySet :=
  { p with values := p.values.insert key value }

def remove (p : PropertySet) (key : String) : PropertySet :=
  { p with values := p.values.erase key }

def size (p : PropertySet) : Nat := p.values.size

def isEmpty (p : PropertySet) : Bool := p.values.isEmpty

/-- The values as one object. -/
def toJson (p : PropertySet) : Json := Json.ofMembers p.values.entries

/-- Read a property with a decoder; an absent one is none, one of another type a fault. -/
def getAs? {α : Type} (p : PropertySet) (decode : Json.Decoder α) (key : String) :
    Except PassError (Option α) :=
  match p.get? key with
  | none => .ok none
  | some value =>
      match decode value.toDocument with
      | some a => .ok (some a)
      | none => .error (.property key)

@[simp] theorem get?_set (p : PropertySet) (key other : String) (value : Json) :
    (p.set key value).get? other = if other = key then some value else p.get? other :=
  Table.get?_insert ..

theorem set_set (p : PropertySet) (key : String) (value : Json) :
    (p.set key value).set key value = p.set key value :=
  congrArg (fun values => { p with values }) (Table.insert_insert p.values key value)

@[simp] theorem get?_remove (p : PropertySet) (key other : String) :
    (p.remove key).get? other = if other = key then none else p.get? other :=
  Table.get?_erase ..

/-! ## Typed slots -/

def getTyped? (p : PropertySet) (t : SlotType) : Option t.Value := p.slots t

/-- Set or clear a slot. -/
def putTyped (p : PropertySet) (t : SlotType) (value : Option t.Value) : PropertySet :=
  { p with slots := fun u => if h : u = t then h ▸ value else p.slots u }

def insertTyped (p : PropertySet) (t : SlotType) (value : t.Value) : PropertySet :=
  p.putTyped t (some value)

def removeTyped (p : PropertySet) (t : SlotType) : PropertySet := p.putTyped t none

/-- Change the value of a slot, if it has one. -/
def modifyTyped (p : PropertySet) (t : SlotType) (f : t.Value → t.Value) : PropertySet :=
  p.putTyped t ((p.slots t).map f)

end PropertySet

end QuantumControl.Pipeline
