import QuantumControl.Proofs.Pipeline.Simulation

/-!
# Pull-based runs and direct evaluation

The main statement of the theory of runs: pulling tasks out of streams does
what evaluating the tree along its structure does.  It is stated for programs
with effects of any kind, and then for a tree that keeps a log: `Task.logged`
makes every pass note that it starts, and every predicate note what it was
asked and what it answered, so that the trace of a run, up to a failing pass,
is a value that both sides have to agree on.
-/

namespace QuantumControl.Pipeline

variable {m : Type → Type} {P : Type}

/-! ## Logs -/

/-- What a run does with the leaves and the predicates of a tree. -/
inductive Event (P : Type) where
  /-- A pass started on a program and properties. -/
  | ran (pass : TaskId) (program : P) (properties : PropertySet)
  /-- A predicate was evaluated on properties. -/
  | asked (properties : PropertySet) (answer : Bool)

/-- The pass that started, if one did. -/
def Event.pass? : Event P → Option TaskId
  | ran pass _ _ => some pass
  | asked _ _ => none

/-- Effects that also keep a log. -/
abbrev Logged (P : Type) (m : Type → Type) := StateT (List (Event P)) m

section Logged

variable [Monad m]

/-- Put an event at the end of the log. -/
def note (e : Event P) : Logged P m Unit := modify (· ++ [e])

def Pass.logged (p : Pass m P) : Pass (Logged P m) P where
  id := p.id
  name := p.name
  kind := p.kind
  run program := ExceptT.mk fun properties => do
    note (.ran p.id program properties)
    StateT.lift ((p.run program).run.run properties)

def Predicate.logged (holds : Predicate m) : Predicate (Logged P m) := fun properties => do
  let answer ← StateT.lift (holds properties)
  note (.asked properties answer)
  return answer

def Flow.logged : Flow m → Flow (Logged P m)
  | .linear => .linear
  | .condition holds => .condition (Predicate.logged holds)
  | .doWhile repeats => .doWhile (Predicate.logged repeats)

mutual

/-- The tree whose leaves and predicates keep a log. -/
def Task.logged : Task m P → Task (Logged P m) P
  | .pass p => .pass p.logged
  | .controller id flow options tasks =>
      .controller id flow.logged options (Task.loggedAll tasks)

def Task.loggedAll : List (Task m P) → List (Task (Logged P m) P)
  | [] => []
  | t :: ts => t.logged :: Task.loggedAll ts

end

def Controller.logged (c : Controller m P) : Controller (Logged P m) P :=
  ⟨c.id, c.flow.logged, c.options, Task.loggedAll c.tasks⟩

end Logged

/-! ## Outcomes -/

section Outcome

variable [Monad m]

/-- The program or the first error, and the properties, that a run leaves. -/
def Runner.outcome (r : Runner m P) (root : Controller m P) (program : P) (state : RunState)
    (properties : PropertySet) : m (Except PassError P × PropertySet) := do
  let ((result, _), properties) ← ((r.execute root program).run.run state).run properties
  return (result, properties)

/-- The program or the first error, and the properties, of the direct evaluation. -/
def Controller.outcome (root : Controller m P) (program : P) (properties : PropertySet) :
    m (Except PassError P × PropertySet) :=
  (root.evaluate program).run.run properties

variable [LawfulMonad m]

theorem Runner.outcome_eq {r : Runner m P} (full : r.legacySkip = false) (silent : r.Silent)
    (root : Controller m P) (program : P) (state : RunState) (properties : PropertySet) :
    r.outcome root program state properties = root.outcome program properties := by
  have h := forgets_execute full silent root program state
  rw [Runner.outcome, Controller.outcome, ← h, StateT.run_map, map_eq_pure_bind]

/-- A run without skipping is the recursive evaluation of its tree: as a
computation with the runner's own bookkeeping and observer; in its result and
properties, from whatever memory; and in the trace of passes and predicates. -/
theorem execute_eq_evaluate (root : Controller m P) (program : P) :
    (∀ r : Runner m P, r.legacySkip = false →
      r.execute root program =
        root.toTask.interpret r.perform RunM.withProperties program) ∧
    (∀ r : Runner m P, r.legacySkip = false → r.Silent → ∀ state properties,
      r.outcome root program state properties = root.outcome program properties) ∧
    ∀ r : Runner (Logged P m) P, r.legacySkip = false → r.Silent → ∀ state properties,
      (r.outcome root.logged program state properties).run [] =
        (root.logged.outcome program properties).run [] := by
  refine ⟨?_, ?_, ?_⟩
  · intro r full
    exact Runner.execute_of_full full root program
  · intro r full silent state properties
    exact Runner.outcome_eq full silent root program state properties
  · intro r full silent state properties
    rw [Runner.outcome_eq full silent root.logged program state properties]

end Outcome

/-- A loop of at most two passes that counts up, and asks for another pass until
the part that runs in the second pass only has run. -/
def countUntilStopped : Controller Id Nat where
  id := ⟨0⟩
  flow := .doWhile fun p => !p.contains "stopped"
  options := { maxIteration := 2 }
  tasks := [
    .pass (.transformation ⟨1⟩ "count" fun n => return n + 1),
    .controller ⟨2⟩ (.condition fun p => p.contains "counted") {}
      [.pass (.analysis ⟨3⟩ "stop" fun _ => modifyThe PropertySet (·.set "stopped" .null))],
    .pass (.analysis ⟨4⟩ "mark" fun _ => modifyThe PropertySet (·.set "counted" .null))]

theorem execute_countUntilStopped :
    ({} : Runner (Logged Nat Id) Nat).legacySkip = false ∧
    ({} : Runner (Logged Nat Id) Nat).Silent ∧
    let run := (({} : Runner (Logged Nat Id) Nat).outcome countUntilStopped.logged 5
      RunState.empty PropertySet.empty).run []
    run.1.1 = .ok 7 ∧ run.2.filterMap Event.pass? = [⟨1⟩, ⟨4⟩, ⟨1⟩, ⟨3⟩, ⟨4⟩] := by
  have silent : ({} : Runner (Logged Nat Id) Nat).Silent := fun f hf => absurd hf (by simp)
  have h := (execute_eq_evaluate countUntilStopped 5).2.2 {} rfl silent RunState.empty
    PropertySet.empty
  refine ⟨rfl, silent, ?_⟩
  rw [h]
  exact ⟨rfl, rfl⟩

end QuantumControl.Pipeline
