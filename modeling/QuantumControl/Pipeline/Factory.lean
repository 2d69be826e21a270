import QuantumControl.Pipeline.Task
import QuantumControl.Table

/-! # Controller factories

A factory builds nested controllers around a list of tasks out of named flow conditions. It knows a
constructor for each alias, and keeps the aliases in an order of priority, which decides what wraps
what. -/

namespace QuantumControl.Pipeline

variable {m : Type → Type} {P : Type}

/-! ## Flow conditions -/

/-- Conditions by alias, in order of arrival; one may lack its predicate. -/
structure FlowConditions (m : Type → Type) where
  entries : Table String (Option (Predicate m))

namespace FlowConditions

def empty : FlowConditions m := ⟨Table.empty⟩

/-- Add a condition, or replace the one of the same alias in its place. -/
def insert (c : FlowConditions m) (name : String) (holds : Option (Predicate m)) :
    FlowConditions m := ⟨c.entries.insert name holds⟩

def isEmpty (c : FlowConditions m) : Bool := c.entries.isEmpty

def aliases (c : FlowConditions m) : List String := c.entries.keys

/-- The predicate of an alias, if it is supplied and has one. -/
def get? (c : FlowConditions m) (name : String) : Option (Predicate m) :=
  (c.entries.get? name).join

def size (c : FlowConditions m) : Nat := c.entries.size

/-- Which aliases have a predicate, as a structured listing shows it. -/
def listing (c : FlowConditions m) : String :=
  let item (e : String × Option (Predicate m)) : String :=
    Text.quoted e.1 ++ ": " ++ if e.2.isSome then "true" else "false"
  "\x7b" ++ ", ".intercalate (c.entries.entries.map item) ++ "\x7d"

end FlowConditions

/-! ## Factories -/

/-- How priority becomes depth. -/
inductive NestingOrder where
  /-- The alias of the lowest priority wraps all others. -/
  | lastOutermost
  /-- The alias of the highest priority wraps all others. -/
  | firstOutermost
deriving DecidableEq, Repr

def NestingOrder.name : NestingOrder → String
  | lastOutermost => "LastOutermost"
  | firstOutermost => "FirstOutermost"

/-- Build a controller with an identity around children. -/
abbrev Constructor (m : Type → Type) (P : Type) :=
  TaskId → List (Task m P) → Predicate m → ControllerOptions → Controller m P

structure Factory (m : Type → Type) (P : Type) where
  constructors : Table String (Constructor m P)
  /-- The aliases by priority, the highest first. -/
  hierarchy : List String
  nesting : NestingOrder

/-- What a factory builds around. -/
inductive TaskSet (m : Type → Type) (P : Type) where
  /-- A controller, taken as it is. -/
  | controller (controller : Controller m P)
  /-- Tasks, which a linear controller is put around. -/
  | tasks (tasks : List (Task m P))

namespace Factory

def empty : Factory m P := ⟨Table.empty, [], .lastOutermost⟩

/-- Register a constructor. A new alias gets the lowest priority, a known one keeps its place. -/
def register (f : Factory m P) (name : String) (make : Constructor m P) : Factory m P where
  constructors := f.constructors.insert name make
  hierarchy := if name ∈ f.hierarchy then f.hierarchy else f.hierarchy ++ [name]
  nesting := f.nesting

def conditional : Constructor m P := fun id tasks holds options =>
  ⟨id, .condition holds, options, tasks⟩

def doWhile : Constructor m P := fun id tasks repeats options =>
  ⟨id, .doWhile repeats, options, tasks⟩

/-- The factory that knows conditions and, wrapping them, loops. -/
def standard : Factory m P := (empty.register "condition" conditional).register "do_while" doWhile

instance : Inhabited (Factory m P) := ⟨standard⟩

def unregister (f : Factory m P) (name : String) : Except PassError (Factory m P) :=
  if name ∈ f.hierarchy then
    .ok { f with constructors := f.constructors.erase name, hierarchy := f.hierarchy.erase name }
  else .error (.controllerNotFound name)

def isRegistered (f : Factory m P) (name : String) : Bool := f.constructors.contains name

/-- Set the priorities; the list must name every registered alias exactly once, which is checked on
sorted copies of both lists. -/
def setHierarchy (f : Factory m P) (order : List String) : Except PassError (Factory m P) :=
  if order.mergeSort = f.hierarchy.mergeSort then .ok { f with hierarchy := order }
  else .error (.invalidConfiguration
    (s!"hierarchy {Text.quotedList order} is not a permutation of the registered aliases " ++
      Text.quotedList f.hierarchy))

def setNesting (f : Factory m P) (nesting : NestingOrder) : Factory m P := { f with nesting }

/-- The aliases from the innermost layer to the outermost. -/
def innermostFirst (f : Factory m P) : List String :=
  match f.nesting with
  | .lastOutermost => f.hierarchy
  | .firstOutermost => f.hierarchy.reverse

/-- What is wrong with a condition, if something is. -/
def fault? (f : Factory m P) (e : String × Option (Predicate m)) : Option PassError :=
  if e.2.isNone then some (.missingPredicate e.1)
  else if !f.isRegistered e.1 then some (.unknownController e.1)
  else none

/-- The layers to put around the base, from the innermost to the outermost. -/
def layers (f : Factory m P) (conditions : FlowConditions m) :
    List (Constructor m P × Predicate m) :=
  f.innermostFirst.filterMap fun name =>
    match conditions.get? name, f.constructors.get? name with
    | some holds, some make => some (make, holds)
    | _, _ => none

/-- Put layers around a controller, with identities counted up from `fresh`. -/
def wrap (options : ControllerOptions) :
    Nat → Controller m P → List (Constructor m P × Predicate m) → Controller m P
  | _, inner, [] => inner
  | fresh, inner, (make, holds) :: rest =>
      wrap options (fresh + 1) (make ⟨fresh⟩ [inner.toTask] holds options) rest

/-- Build the controller of a task set under conditions. Its new controllers take identities from
`fresh` on, at most one more of them than there are conditions. -/
def build (f : Factory m P) (fresh : Nat) (tasks : TaskSet m P) (options : ControllerOptions)
    (conditions : FlowConditions m) : Except PassError (Controller m P) :=
  match conditions.entries.entries.findSome? f.fault? with
  | some fault => .error fault
  | none =>
      let base := match tasks with
        | .controller c => c
        | .tasks ts => ⟨⟨fresh⟩, .linear, options, ts⟩
      .ok (wrap options (fresh + 1) base (f.layers conditions))

/-- The factory as a structured listing shows it. -/
def listing (f : Factory m P) : String :=
  s!"ControllerFactory \x7b hierarchy: {Text.quotedList f.hierarchy}, " ++
    s!"nesting: {f.nesting.name}, .. \x7d"

end Factory

end QuantumControl.Pipeline
