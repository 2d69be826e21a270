import QuantumControl.Proofs.Pipeline.Simulation

/-!
# Coupled interpretations

Two interpretations of a tree may agree only as long as the program, the memory and
the properties are in step, so that what relates them speaks of the program that a
pass is given.  A `Coupling` is therefore a relation between functions of the
program: it is kept when one function runs after another, and when a predicate
chooses between two.  Trees are then related as soon as their leaves are: each
leaf of the tree, and no other pass, which is more than a `Simulation` offers.

The last part describes the run of a pass in a pipeline whose passes and predicates
have no effects of their own: from a memory and properties it leaves one result.
-/

namespace QuantumControl.Pipeline

variable {m : Type → Type} {P : Type}

/-! ## Leaves -/

mutual

/-- The passes of a tree, in the order of the tree. -/
def Task.leaves : Task m P → List (Pass m P)
  | .pass p => [p]
  | .controller _ _ _ tasks => Task.leavesAll tasks

def Task.leavesAll : List (Task m P) → List (Pass m P)
  | [] => []
  | t :: ts => t.leaves ++ Task.leavesAll ts

end

def Controller.leaves (c : Controller m P) : List (Pass m P) := c.toTask.leaves

theorem Task.mem_leavesAll {p : Pass m P} {ts : List (Task m P)} :
    p ∈ Task.leavesAll ts ↔ ∃ t ∈ ts, p ∈ t.leaves := by
  induction ts with
  | nil => simp [Task.leavesAll]
  | cons t ts ih => simp [Task.leavesAll, ih]

/-! ## Couplings -/

/-- A relation between functions of the program that the steps of an interpretation respect. -/
structure Coupling (M N : Type → Type) [Monad M] [Monad N] [MonadExceptOf PassError M]
    [MonadExceptOf PassError N] (ask : Predicate m → M Bool) (ask' : Predicate m → N Bool)
    (rel : (P → M P) → (P → N P) → Prop) : Prop where
  pure : rel pure pure
  bind {f g : P → M P} {f' g' : P → N P} (first : rel f f') (next : rel g g') :
    rel (fun program => f program >>= g) (fun program => f' program >>= g')
  throw (error : PassError) : rel (fun _ => throw error) (fun _ => throw error)
  choice (holds : Predicate m) {f g : P → M P} {f' g' : P → N P} (yes : rel f f')
    (no : rel g g') :
    rel (fun program => do if ← ask holds then f program else g program)
      (fun program => do if ← ask' holds then f' program else g' program)

section Coupled

variable {M N : Type → Type} [Monad M] [Monad N] [MonadExceptOf PassError M]
  [MonadExceptOf PassError N] {ask : Predicate m → M Bool} {ask' : Predicate m → N Bool}
  {rel : (P → M P) → (P → N P) → Prop} (coupling : Coupling M N ask ask' rel)

include coupling

theorem passes_coupled (ceiling : Nat) (repeats : Predicate m) {body : P → M P}
    {body' : P → N P} (bodies : rel body body') (left : Nat) :
    rel (passes ceiling (ask repeats) body left) (passes ceiling (ask' repeats) body' left) := by
  induction left with
  | zero => exact coupling.throw _
  | succ left ih => exact coupling.bind bodies (coupling.choice repeats ih coupling.pure)

theorem Flow.interpret_coupled (flow : Flow m) (ceiling : Nat) {body : P → M P}
    {body' : P → N P} (bodies : rel body body') :
    rel (fun program => flow.interpret ask ceiling body program)
      (fun program => flow.interpret ask' ceiling body' program) := by
  cases flow with
  | linear => exact bodies
  | condition holds => exact coupling.choice holds bodies coupling.pure
  | doWhile repeats => exact passes_coupled coupling ceiling repeats bodies ceiling

variable {leaf : Pass m P → P → M P} {leaf' : Pass m P → P → N P}

theorem Task.interpretAll_coupled {ts : List (Task m P)}
    (coupled : ∀ t ∈ ts, rel (t.interpret leaf ask) (t.interpret leaf' ask')) :
    rel (Task.interpretAll leaf ask ts) (Task.interpretAll leaf' ask' ts) := by
  induction ts with
  | nil => exact coupling.pure
  | cons t ts ih =>
      exact coupling.bind (coupled t List.mem_cons_self)
        (ih fun u hu => coupled u (List.mem_cons_of_mem t hu))

/-- Trees are coupled if their leaves are. -/
theorem Task.interpret_coupled (t : Task m P)
    (leaves : ∀ p ∈ t.leaves, rel (leaf p) (leaf' p)) :
    rel (t.interpret leaf ask) (t.interpret leaf' ask') := by
  induction t using Task.induction with
  | pass p => exact leaves p (List.mem_singleton_self p)
  | controller id flow options tasks ih =>
      refine Flow.interpret_coupled coupling flow options.maxIteration
        (Task.interpretAll_coupled coupling fun t ht => ih t ht fun p hp => ?_)
      exact leaves p (Task.mem_leavesAll.2 ⟨t, ht, hp⟩)

end Coupled

/-- Computations that a simulation relates for each program are coupled. -/
theorem Simulation.coupling {M N : Type → Type} [Monad M] [Monad N] [MonadExceptOf PassError M]
    [MonadExceptOf PassError N] {rel : {α : Type} → M α → N α → Prop} (sim : Simulation M N rel)
    {ask : Predicate m → M Bool} {ask' : Predicate m → N Bool} (asks : ∀ f, rel (ask f) (ask' f)) :
    Coupling M N ask ask' (P := P) fun f g => ∀ program, rel (f program) (g program) where
  pure program := sim.pure program
  bind first next program := sim.bind (first program) next
  throw error _ := sim.throw error
  choice holds {f g f' g'} yes no program := by
    refine sim.bind (asks holds) fun entered => ?_
    cases entered with
    | false => exact no program
    | true => exact yes program

/-! ## Passes without effects of their own -/

/-- What a pass makes of a program and properties. -/
def Pass.outcome (pass : Pass Id P) (program : P) (properties : PropertySet) :
    Except PassError P × PropertySet := (pass.run program).run.run properties

/-- What a run, or a part of one, leaves: the program or the first error, the memory, and the
properties. -/
abbrev Ending (P : Type) := (Except PassError P × RunState) × PropertySet

namespace RunM

/-- Where a part of a run ends that begins with a memory and properties. -/
def ending (x : RunM Id P) (state : RunState) (properties : PropertySet) : Ending P :=
  (x.run.run state).run properties

theorem ending_bind (x : RunM Id P) (f : P → RunM Id P) (state : RunState)
    (properties : PropertySet) :
    (x >>= f).ending state properties =
      match x.ending state properties with
      | ((.ok program, s), p) => (f program).ending s p
      | ((.error error, s), p) => ((.error error, s), p) := by
  refine (run_bind x f state properties).trans ?_
  rw [ending]
  generalize (x.run.run state).run properties = run
  obtain ⟨⟨result, s⟩, p⟩ := run
  cases result <;> rfl

theorem ending_choice (holds : Predicate Id) (x y : RunM Id P) (state : RunState)
    (properties : PropertySet) :
    (do if ← withProperties holds then x else y : RunM Id P).ending state properties =
      if (holds properties).run then x.ending state properties
      else y.ending state properties := by
  rw [ending, run_bind_of_ok (run_withProperties_eq holds)]
  show ((if (holds properties).run then x else y).run.run state).run properties = _
  split <;> rfl

end RunM

/-- A pass is skipped, or it runs and is recorded if it succeeds. -/
theorem Runner.ending_runPass (r : Runner Id P) (pass : Pass Id P) (program : P)
    (state : RunState) (properties : PropertySet) :
    (r.runPass pass program).ending state properties =
      if r.legacySkip && pass.kind = .analysis && state.isValid pass.id then
        ((.ok program, state), properties)
      else match pass.outcome program properties with
        | (.ok out, after) => ((.ok out, state.record pass.id pass.kind), after)
        | (.error error, after) => ((.error error, state), after) := by
  refine (r.run_runPass pass program state properties).trans ?_
  split
  · rfl
  · refine (r.run_perform pass program state properties).trans ?_
    rw [Pass.outcome]
    generalize (pass.run program).run.run properties = run
    obtain ⟨result, after⟩ := run
    cases result <;> rfl

end QuantumControl.Pipeline
