import QuantumControl.Pipeline.Options
import QuantumControl.Pipeline.Property
import QuantumControl.Text.Quoted

/-! # Tasks and controllers

A pipeline is a tree. Its leaves are passes, which analyse or transform a program; its inner nodes
are controllers, which decide how often their children run. Passes and predicates act in a monad
`m`, beside the property set that all of them share, so that a statement about runs holds for
whatever else passes and predicates do. -/

namespace QuantumControl.Pipeline

/-- What a task does with the program. -/
inductive PassKind where
  /-- Reads the program and writes to the property set only. -/
  | analysis
  /-- May replace the program, and so outdate what analyses found. -/
  | transformation
  /-- Schedules other tasks. -/
  | flow
deriving DecidableEq, Repr

def PassKind.name : PassKind → String
  | analysis => "Analysis"
  | transformation => "Transformation"
  | flow => "Flow"

/-- The identity of a task. Tasks that are built apart have different identities. -/
structure TaskId where
  val : Nat
deriving DecidableEq, Repr

/-- The effects of a pass: it may fail, and what it wrote before stays written. -/
abbrev PassM (m : Type → Type) := ExceptT PassError (StateT PropertySet m)

/-- A condition on the properties at the moment when it is evaluated. -/
abbrev Predicate (m : Type → Type) := PropertySet → m Bool

/-- A leaf of the pipeline. -/
structure Pass (m : Type → Type) (P : Type) where
  id : TaskId
  name : String
  kind : PassKind
  run : P → PassM m P

/-- How a controller runs its children. -/
inductive Flow (m : Type → Type) where
  /-- All of them, once, in order. -/
  | linear
  /-- As `linear` if the condition holds on entry, else none. -/
  | condition (holds : Predicate m)
  /-- All of them again and again, as long as the condition holds after a pass. -/
  | doWhile (repeats : Predicate m)

inductive Task (m : Type → Type) (P : Type) where
  | pass (pass : Pass m P)
  | controller (id : TaskId) (flow : Flow m) (options : ControllerOptions) (tasks : List (Task m P))

/-- An inner node of the pipeline. -/
structure Controller (m : Type → Type) (P : Type) where
  id : TaskId
  flow : Flow m
  options : ControllerOptions
  tasks : List (Task m P)

variable {m : Type → Type} {P : Type}

namespace Pass

/-- A pass that leaves the program as it is. -/
def analysis [Monad m] (id : TaskId) (name : String) (run : P → PassM m Unit) : Pass m P where
  id := id
  name := name
  kind := .analysis
  run := fun p => do
    run p
    return p

def transformation (id : TaskId) (name : String) (run : P → PassM m P) : Pass m P :=
  ⟨id, name, .transformation, run⟩

/-- The pass as a structured listing shows it. -/
def listing (p : Pass m P) : String :=
  s!"FnPass \x7b name: {Text.quoted p.name}, kind: {p.kind.name}, .. \x7d"

end Pass

namespace Flow

def name : Flow m → String
  | linear => "linear"
  | condition _ => "condition"
  | doWhile _ => "do_while"

/-- The type of controller with this flow. -/
def typeName : Flow m → String
  | linear => "LinearController"
  | condition _ => "ConditionalController"
  | doWhile _ => "DoWhileController"

end Flow

namespace Controller

def toTask (c : Controller m P) : Task m P := .controller c.id c.flow c.options c.tasks

def name (c : Controller m P) : String := c.flow.name

/-- The controller with further children at the end. -/
def append (c : Controller m P) (tasks : List (Task m P)) : Controller m P :=
  { c with tasks := c.tasks ++ tasks }

end Controller

namespace Task

def id : Task m P → TaskId
  | pass p => p.id
  | controller id _ _ _ => id

def name : Task m P → String
  | pass p => p.name
  | controller _ flow _ _ => flow.name

def kind : Task m P → PassKind
  | pass p => p.kind
  | controller _ _ _ _ => .flow

/-- The task as a controller, if it is one. -/
def controller? : Task m P → Option (Controller m P)
  | pass _ => none
  | controller id flow options tasks => some ⟨id, flow, options, tasks⟩

end Task

/-- The controller as a structured listing shows it. -/
def Controller.listing (c : Controller m P) : String :=
  s!"{c.flow.typeName} \x7b tasks: {Text.quotedList (c.tasks.map Task.name)}, " ++
    s!"options: {c.options.listing}, .. \x7d"

def Task.listing : Task m P → String
  | .pass p => p.listing
  | .controller id flow options tasks => (⟨id, flow, options, tasks⟩ : Controller m P).listing

end QuantumControl.Pipeline
