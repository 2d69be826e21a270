import QuantumControl.Pipeline.Stream

/-! # Runners

A runner drives a controller's stream: it descends into controllers, runs passes on the current
program, and counts what it ran. A pass is valid from the moment it ran until a transformation
runs. With `legacySkip` a valid analysis is not run again. -/

namespace QuantumControl.Pipeline

variable {m : Type → Type} {P : Type}

/-- What a runner remembers. -/
structure RunState where
  /-- How many passes ran. The number stands for a machine word; runs are assumed to be shorter than
  `UInt64.size` passes, so that the word never overflows. -/
  count : Nat
  /-- The passes that ran and were not outdated since, without repetition. -/
  completed : List TaskId
deriving DecidableEq, Repr

namespace RunState

def empty : RunState := ⟨0, []⟩

instance : Inhabited RunState := ⟨empty⟩

def isValid (s : RunState) (id : TaskId) : Bool := s.completed.contains id

def validPasses (s : RunState) : Nat := s.completed.length

/-- Count a pass that ran; a transformation outdates everything before it. -/
def record (s : RunState) (id : TaskId) (kind : PassKind) : RunState where
  count := s.count + 1
  completed := if kind = .transformation then [id] else s.completed.insert id

end RunState

/-- What an observer is shown after each pass. -/
structure Observation (m : Type → Type) (P : Type) where
  pass : Pass m P
  program : P
  properties : PropertySet
  /-- The number of passes that ran so far, this one included. -/
  count : Nat

/-- How a runner is set up. -/
structure Runner (m : Type → Type) (P : Type) where
  observer : Option (Observation m P → m Unit) := none
  legacySkip : Bool := false

/-- The effects of a run: those of its passes, and the runner's memory. -/
abbrev RunM (m : Type → Type) := ExceptT PassError (StateT RunState (StateT PropertySet m))

namespace RunM

variable [Monad m] {α : Type}

/-- A pass's effects within a run. -/
def ofPass (x : PassM m α) : RunM m α := ExceptT.mk (StateT.lift x.run)

/-- An effect that is given the current properties. -/
def withProperties (f : PropertySet → m α) : RunM m α :=
  ExceptT.lift (StateT.lift (do StateT.lift (f (← get))))

end RunM

namespace Runner

variable [Monad m]

/-- Show an observer a pass that ran. -/
def observe (r : Runner m P) (p : Pass m P) (program : P) : RunM m Unit := do
  match r.observer with
  | none => return ()
  | some f =>
      let state ← getThe RunState
      RunM.withProperties fun properties => f ⟨p, program, properties, state.count⟩

/-- Run a pass, unless it is an analysis that may be skipped. -/
def runPass (r : Runner m P) (p : Pass m P) (program : P) : RunM m P := do
  let state ← getThe RunState
  if r.legacySkip && p.kind = .analysis && state.isValid p.id then
    return program
  else
    let program ← RunM.ofPass (p.run program)
    modifyThe RunState (·.record p.id p.kind)
    r.observe p program
    return program

/-- Run everything that a stream yields, in order, until it ends or something fails. -/
def drive (r : Runner m P) (s : TaskStream m P) (program : P) : RunM m P := do
  match ← RunM.withProperties (s.pull ·) with
  | .done => return program
  | .fail error => throw error
  | .task (.pass p) rest _ _ =>
      let program ← r.runPass p program
      drive r rest program
  | .task (.controller id flow options tasks) rest _ _ =>
      let inner : Controller m P := ⟨id, flow, options, tasks⟩
      let entered ← RunM.withProperties inner.enters
      let program ← drive r (inner.stream entered) program
      drive r rest program
termination_by (s.weight, s.budget)
decreasing_by
  · next less => rcases less with h | ⟨h, h'⟩
                 · exact Prod.Lex.left _ _ h
                 · rw [h]; exact Prod.Lex.right _ h'
  · next smaller _ =>
      refine Prod.Lex.left _ _ (Nat.lt_of_le_of_lt (Controller.weight_stream_le _ _) ?_)
      refine Nat.lt_of_le_of_lt ?_ smaller
      simp
  · next less => rcases less with h | ⟨h, h'⟩
                 · exact Prod.Lex.left _ _ h
                 · rw [h]; exact Prod.Lex.right _ h'

/-- Run a controller. -/
def execute (r : Runner m P) (root : Controller m P) (program : P) : RunM m P := do
  let entered ← RunM.withProperties root.enters
  r.drive (root.stream entered) program

end Runner

/-- Run a task on its own: a controller is run by a fresh runner. -/
def Task.run [Monad m] (t : Task m P) (program : P) : PassM m P :=
  match t with
  | .pass p => p.run program
  | .controller id flow options tasks =>
      let runner : Runner m P := {}
      ExceptT.mk do
        return (← (runner.execute ⟨id, flow, options, tasks⟩ program).run.run RunState.empty).1

end QuantumControl.Pipeline
