import QuantumControl.Pipeline.Factory
import QuantumControl.Pipeline.Runner

/-! # Pass managers

A pass manager holds the top-level tasks of a pipeline, runs them, and remembers the last run. -/

namespace QuantumControl.Pipeline

variable {m : Type → Type} {P : Type}

structure PassManager (m : Type → Type) (P : Type) where
  tasks : List (Task m P) := []
  options : ControllerOptions := {}
  factory : Factory m P := Factory.standard
  legacySkip : Bool := false
  /-- What is remembered of the last run. -/
  state : RunState := RunState.empty

namespace PassManager

def size (pm : PassManager m P) : Nat := pm.tasks.length

def isEmpty (pm : PassManager m P) : Bool := pm.tasks.isEmpty

/-- Append a controller as one top-level task. -/
def appendController (pm : PassManager m P) (c : Controller m P) : PassManager m P :=
  { pm with tasks := pm.tasks ++ [c.toTask] }

/-- Append tasks under conditions. Tasks without conditions are appended as they are, everything
else as the one controller that the factory builds. -/
def append (pm : PassManager m P) (fresh : Nat) (tasks : TaskSet m P)
    (conditions : FlowConditions m) : Except PassError (PassManager m P) :=
  let built := (pm.factory.build fresh tasks pm.options conditions).map pm.appendController
  match tasks with
  | .tasks ts => if conditions.isEmpty then .ok { pm with tasks := pm.tasks ++ ts } else built
  | .controller _ => built

/-- The controller that a run starts from. Identities of controllers play no part in a run. -/
def root (pm : PassManager m P) : Controller m P := ⟨⟨0⟩, .linear, pm.options, pm.tasks⟩

variable [Monad m]

def runner (pm : PassManager m P) (observer : Option (Observation m P → m Unit)) : Runner m P where
  observer := observer
  legacySkip := pm.legacySkip

/-- Run the pipeline with a fresh runner, whose memory the manager keeps also if the run fails. -/
def run (pm : PassManager m P) (observer : Option (Observation m P → m Unit)) (program : P) :
    StateT PropertySet m (Except PassError P × PassManager m P) := do
  let (result, state) ← ((pm.runner observer).execute pm.root program).run.run RunState.empty
  return (result, { pm with state })

/-- The manager as a structured listing shows it. -/
def listing (pm : PassManager m P) : String :=
  s!"PassManager \x7b tasks: {Text.quotedList (pm.tasks.map Task.name)}, " ++
    s!"options: {pm.options.listing}, factory: {pm.factory.listing}, " ++
    (if pm.legacySkip then "legacy_skip: true" else "legacy_skip: false") ++ ", .. \x7d"

end PassManager

end QuantumControl.Pipeline
