import Mathlib.Data.List.Forall2
import QuantumControl.Pipeline.Manager
import QuantumControl.Proofs.Pipeline.Evaluation
import QuantumControl.Proofs.Pipeline.Nesting
import QuantumControl.Proofs.Pipeline.Skipping

/-!
# How a pipeline is put together

Tasks enter a pipeline as a list, as a controller that is there already, or within the controllers
that a factory builds.  A linear controller runs its tasks as they would run in its place, before
whatever comes after it; so a list of tasks can be appended at once or in chunks, and any of the
chunks within linear controllers, and no run tells the difference (`Wraps.interpretAll_eq`).

The calls are taken here as they change a manager in place, where a fault leaves behind whatever
was changed before it.  An append changes the manager once, after everything that can fail
(`PassManager.run_appendInPlace`).
-/

namespace QuantumControl.Pipeline

variable {m : Type → Type} {P : Type}

/-! ## Linear controllers -/

/-- Tasks that come to a list of tasks if some linear controllers among them are opened, and some
within these, and so on. -/
inductive Wraps : List (Task m P) → List (Task m P) → Prop
  | nil : Wraps [] []
  | task (t : Task m P) {us ts : List (Task m P)} (rest : Wraps us ts) : Wraps (t :: us) (t :: ts)
  | linear (id : TaskId) (options : ControllerOptions) {inner chunk us ts : List (Task m P)}
      (opened : Wraps inner chunk) (rest : Wraps us ts) :
      Wraps (.controller id .linear options inner :: us) (chunk ++ ts)

namespace Wraps

theorem refl (ts : List (Task m P)) : Wraps ts ts := by
  induction ts with
  | nil => exact .nil
  | cons t ts ih => exact .task t ih

theorem append {us ts us' ts' : List (Task m P)} (h : Wraps us ts) (h' : Wraps us' ts') :
    Wraps (us ++ us') (ts ++ ts') := by
  induction h with
  | nil => exact h'
  | task t _ ih => exact .task t ih
  | linear id options opened _ _ ih =>
      rw [List.append_assoc]
      exact .linear id options opened ih

end Wraps

section Interpretation

variable {M : Type → Type} [Monad M] [LawfulMonad M] [MonadExceptOf PassError M]
  (leaf : Pass m P → P → M P) (ask : Predicate m → M Bool)

theorem Task.interpretAll_append (ts us : List (Task m P)) (program : P) :
    interpretAll leaf ask (ts ++ us) program =
      interpretAll leaf ask ts program >>= interpretAll leaf ask us := by
  induction ts generalizing program with
  | nil => exact (pure_bind program _).symm
  | cons t ts ih =>
      rw [List.cons_append, interpretAll, interpretAll, bind_assoc]
      exact bind_congr ih

/-- Opening linear controllers changes nothing, whatever comes before them and after. -/
theorem Wraps.interpretAll_eq {us ts : List (Task m P)} (h : Wraps us ts) (program : P) :
    Task.interpretAll leaf ask us program = Task.interpretAll leaf ask ts program := by
  induction h generalizing program with
  | nil => rfl
  | task t _ ih =>
      rw [Task.interpretAll, Task.interpretAll]
      exact bind_congr ih
  | linear id options _ _ opened rest =>
      rw [Task.interpretAll, Task.interpret, Flow.interpret, Task.interpretAll_append, opened]
      exact bind_congr rest

end Interpretation

/-- Without conditions nothing is put around the base. -/
theorem Factory.build_empty (f : Factory m P) (fresh : Nat) (tasks : TaskSet m P)
    (options : ControllerOptions) :
    f.build fresh tasks options .empty = .ok (TaskSet.base fresh options tasks) := by
  have layers : f.layers (.empty : FlowConditions m) = [] :=
    List.filterMap_eq_nil_iff.2 fun _ _ => rfl
  show Except.ok (wrap options (fresh + 1) _ (f.layers .empty)) = _
  rw [layers]
  cases tasks <;> rfl

namespace PassManager

/-! ## What a run shows -/

/-- The answer of a run, and what the manager remembers of it. -/
def report [Monad m] (pm : PassManager m P) (observer : Option (Observation m P → m Unit))
    (program : P) : StateT PropertySet m (Except PassError P × RunState) :=
  (fun run => (run.1, run.2.state)) <$> pm.run observer program

section Report

variable [Monad m] [LawfulMonad m] (pm : PassManager m P)
  (observer : Option (Observation m P → m Unit)) (program : P)

/-- A run depends on the tasks and on whether to skip, and on nothing else that a manager holds. -/
theorem report_eq :
    pm.report observer program =
      (Task.interpretAll (pm.runner observer).runPass RunM.withProperties pm.tasks
        program).run.run RunState.empty := by
  rw [report, run, map_bind, Runner.execute_eq_interpret]
  exact (bind_congr fun run => map_pure _ _).trans (bind_pure _)

theorem report_of_wraps {us : List (Task m P)} (h : Wraps us pm.tasks) :
    { pm with tasks := us }.report observer program = pm.report observer program := by
  rw [report_eq, report_eq, ← h.interpretAll_eq]
  rfl

end Report

/-! ## Calls in place -/

/-- Append the controller that the factory builds, in place. -/
def buildInPlace (fresh : Nat) (tasks : TaskSet m P) (conditions : FlowConditions m) :
    EStateM PassError (PassManager m P) Unit := do
  let pm ← get
  let c ← ofExcept (pm.factory.build fresh tasks pm.options conditions)
  modify (·.appendController c)

/-- Append tasks under conditions, in place. -/
def appendInPlace (fresh : Nat) (tasks : TaskSet m P) (conditions : FlowConditions m) :
    EStateM PassError (PassManager m P) Unit :=
  match tasks with
  | .tasks ts =>
      if conditions.isEmpty then modify fun pm => { pm with tasks := pm.tasks ++ ts }
      else buildInPlace fresh tasks conditions
  | .controller _ => buildInPlace fresh tasks conditions

/-- A call that appends without conditions. -/
inductive Addition (m : Type → Type) (P : Type) where
  /-- Tasks, or a controller that is there already. -/
  | append (fresh : Nat) (tasks : TaskSet m P)
  | controller (c : Controller m P)

namespace Addition

/-- The top-level tasks that a call brings. -/
def tasks : Addition m P → List (Task m P)
  | .append _ (.tasks ts) => ts
  | .append _ (.controller c) => [c.toTask]
  | .controller c => [c.toTask]

def perform : Addition m P → EStateM PassError (PassManager m P) Unit
  | .append fresh tasks => appendInPlace fresh tasks .empty
  | .controller c => modify (·.appendController c)

/-- Calls one after the other, up to the first that fails. -/
def performAll : List (Addition m P) → EStateM PassError (PassManager m P) Unit
  | [] => return ()
  | a :: additions => do
      a.perform
      performAll additions

end Addition

section InPlace

variable (pm : PassManager m P)

theorem run_buildInPlace (fresh : Nat) (tasks : TaskSet m P) (conditions : FlowConditions m) :
    (buildInPlace fresh tasks conditions).run pm =
      match (pm.factory.build fresh tasks pm.options conditions).map pm.appendController with
      | .ok after => .ok () after
      | .error fault => .error fault pm := by
  show EStateM.bind (ofExcept _) _ pm = _
  cases pm.factory.build fresh tasks pm.options conditions with
  | ok c => rfl
  | error fault => rfl

/-- In place a fault leaves the manager as it was. -/
theorem run_appendInPlace (fresh : Nat) (tasks : TaskSet m P) (conditions : FlowConditions m) :
    (appendInPlace fresh tasks conditions).run pm =
      match pm.append fresh tasks conditions with
      | .ok after => .ok () after
      | .error fault => .error fault pm := by
  have built := pm.run_buildInPlace fresh tasks conditions
  cases tasks with
  | tasks ts =>
      rw [appendInPlace, append]
      split
      · rfl
      · exact built
  | controller c => exact built

/-- What is appended under conditions fails as what is built under them. -/
theorem append_eq_error_iff {fresh : Nat} {tasks : TaskSet m P} {conditions : FlowConditions m}
    {fault : PassError} :
    pm.append fresh tasks conditions = .error fault ↔
      pm.factory.build fresh tasks pm.options conditions = .error fault := by
  have built : (pm.factory.build fresh tasks pm.options conditions).map pm.appendController =
      .error fault ↔ pm.factory.build fresh tasks pm.options conditions = .error fault := by
    cases pm.factory.build fresh tasks pm.options conditions with
    | ok c => exact ⟨(nomatch ·), (nomatch ·)⟩
    | error other =>
        show Except.error other = _ ↔ _
        rw [Except.error.injEq, Except.error.injEq]
  cases tasks with
  | controller c => exact built
  | tasks ts =>
      rw [append]
      split
      · next free =>
          have clear : pm.factory.build fresh (.tasks ts) pm.options conditions ≠ .error fault := by
            rw [Factory.build, List.isEmpty_iff.1 free]
            exact nofun
          exact ⟨(nomatch ·), fun failed => absurd failed clear⟩
      · exact built

theorem run_appendInPlace_eq_error_iff {fresh : Nat} {tasks : TaskSet m P}
    {conditions : FlowConditions m} {fault : PassError} {after : PassManager m P} :
    (appendInPlace fresh tasks conditions).run pm = .error fault after ↔
      after = pm ∧ pm.factory.build fresh tasks pm.options conditions = .error fault := by
  rw [run_appendInPlace, ← append_eq_error_iff]
  cases pm.append fresh tasks conditions with
  | ok done => exact ⟨(nomatch ·), fun failed => nomatch failed.2⟩
  | error other =>
      rw [EStateM.Result.error.injEq, Except.error.injEq, and_comm, eq_comm (a := pm)]

/-- A call without conditions brings its tasks, and changes nothing else. -/
theorem run_perform (a : Addition m P) :
    a.perform.run pm = .ok () { pm with tasks := pm.tasks ++ a.tasks } := by
  cases a with
  | append fresh tasks =>
      rw [Addition.perform, run_appendInPlace]
      cases tasks with
      | tasks ts => rfl
      | controller c =>
          have built := pm.factory.build_empty fresh (.controller c) pm.options
          rw [append, built]
          rfl
  | controller c => rfl

theorem run_performAll (additions : List (Addition m P)) :
    (Addition.performAll additions).run pm =
      .ok () { pm with tasks := pm.tasks ++ additions.flatMap Addition.tasks } := by
  induction additions generalizing pm with
  | nil =>
      rw [List.flatMap_nil, List.append_nil]
      rfl
  | cons a additions ih =>
      rw [Addition.performAll, EStateM.run_bind, run_perform]
      dsimp only
      rw [ih, List.flatMap_cons, List.append_assoc]

end InPlace

/-- What calls bring comes to what their chunks make up. -/
theorem wraps_flatten {additions : List (Addition m P)} {chunks : List (List (Task m P))}
    (brings : List.Forall₂ (fun a chunk => Wraps a.tasks chunk) additions chunks) :
    Wraps (additions.flatMap Addition.tasks) chunks.flatten := by
  induction brings with
  | nil => exact .nil
  | cons first _ ih =>
      rw [List.flatMap_cons, List.flatten_cons]
      exact first.append ih

/-! ## Putting a pipeline together -/

/-- Appending tasks at once, or in chunks one after the other, any of them within linear
controllers at any depth, always succeeds and leaves managers that differ in their tasks only; and
every run of the two, skipping or not, gives the same answer, properties, count and valid passes.
An append under conditions fails if and only if an alias lacks its predicate or its constructor,
and the manager is then the one from before. -/
theorem assembly_exact [Monad m] [LawfulMonad m] (pm : PassManager m P) :
    (∀ fresh ts additions (chunks : List (List (Task m P))), chunks.flatten = ts →
      List.Forall₂ (fun a chunk => Wraps (Addition.tasks a) chunk) additions chunks →
      ∃ once several, (appendInPlace fresh (.tasks ts) .empty).run pm = .ok () once ∧
        (Addition.performAll additions).run pm = .ok () several ∧
        several = { once with tasks := several.tasks } ∧
        ∀ legacySkip observer program,
          { several with legacySkip }.report observer program =
            { once with legacySkip }.report observer program) ∧
    ∀ fresh tasks (supply : Supply m) fault after,
      (appendInPlace fresh tasks supply.conditions).run pm = .error fault after ↔
        after = pm ∧ ∃ before e rest, supply = before ++ e :: rest ∧
          (∀ b ∈ before, pm.factory.Accepts supply b.1) ∧
            pm.factory.Refuses supply e.1 fault := by
  constructor
  · rintro fresh _ additions chunks rfl brings
    refine ⟨_, _, pm.run_perform (.append fresh (.tasks _)), pm.run_performAll additions, rfl, ?_⟩
    intro legacySkip observer program
    have whole := (Wraps.refl pm.tasks).append (wraps_flatten brings)
    exact report_of_wraps { pm with tasks := pm.tasks ++ chunks.flatten, legacySkip } observer
      program whole
  · intro fresh tasks supply fault after
    rw [run_appendInPlace_eq_error_iff, Factory.build_eq_error_iff]

/-- A number is measured, grows and is measured again.  The last two passes come as a controller
within which the first of them is in another one.  Then a loop is to be appended under an alias
that is not known. -/
theorem assembly_exact_measured :
    let pm : PassManager Id Nat := {}
    let again : Pass Id Nat := { measure with id := ⟨3⟩ }
    let inner : Task Id Nat := .controller ⟨8⟩ .linear {} [.pass (grow .transformation)]
    let additions : List (Addition Id Nat) :=
      [.append 0 (.tasks [.pass measure]), .controller ⟨⟨7⟩, .linear, {}, [inner, .pass again]⟩]
    let ts : List (Task Id Nat) := [.pass measure, .pass (grow .transformation), .pass again]
    let supply : Supply Id := [("do_while", some fun _ => false), ("loop", some fun _ => true)]
    ∃ once several, (appendInPlace 0 (.tasks ts) .empty).run pm = .ok () once ∧
      (Addition.performAll additions).run pm = .ok () several ∧
      once.tasks.length = 3 ∧ several.tasks.length = 2 ∧
      (∀ legacySkip program, { several with legacySkip }.report none program =
        { once with legacySkip }.report none program) ∧
      (appendInPlace 0 (.tasks ts) supply.conditions).run several =
        .error (.unknownController "loop") several := by
  intro pm again inner additions ts supply
  obtain ⟨flat, -⟩ := assembly_exact pm
  have brings : List.Forall₂ (fun a chunk => Wraps (Addition.tasks a) chunk) additions
      [[.pass measure], [.pass (grow .transformation), .pass again]] := by
    refine .cons (.refl _) (.cons ?_ .nil)
    exact .linear _ _ (.linear _ _ (.refl [_]) (.refl [_])) .nil
  obtain ⟨once, several, done, ended, -, same⟩ := flat 0 ts additions _ rfl brings
  refine ⟨once, several, done, ended, ?_, ?_, fun skip => same skip none, ?_⟩
  · cases done
    rfl
  · cases ended
    rfl
  · obtain ⟨-, atomic⟩ := assembly_exact several
    refine (atomic 0 (.tasks ts) supply _ _).2 ⟨rfl, [_], _, [], rfl, ?_, ?_⟩
    · exact List.forall_mem_singleton.2 ⟨⟨_, rfl⟩, by cases ended; rfl⟩
    · exact .unknown rfl (by cases ended; rfl)

end PassManager

end QuantumControl.Pipeline
