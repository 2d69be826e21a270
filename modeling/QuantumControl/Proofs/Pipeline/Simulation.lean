import QuantumControl.Proofs.Pipeline.Evaluation

/-!
# Related interpretations

Two interpretations of a tree are related as soon as their passes and their
predicates are, if the relation respects the steps that all interpretations are
made of (`Simulation`).

The instance here forgets the memory of a runner: leaving its count and its
valid passes aside, a run without skipping does what `Controller.evaluate`
does, which knows nothing of runners.
-/

namespace QuantumControl.Pipeline

variable {m : Type → Type} {P : Type}

/-- A relation between computations of two kinds that their steps respect. -/
structure Simulation (M N : Type → Type) [Monad M] [Monad N] [MonadExceptOf PassError M]
    [MonadExceptOf PassError N] (rel : {α : Type} → M α → N α → Prop) : Prop where
  pure {α : Type} (a : α) : rel (pure a : M α) (pure a)
  bind {α β : Type} {x : M α} {y : N α} {f : α → M β} {g : α → N β} (h : rel x y)
    (next : ∀ a, rel (f a) (g a)) : rel (x >>= f) (y >>= g)
  throw {α : Type} (error : PassError) : rel (throw error : M α) (throw error)

section Related

variable {M N : Type → Type} [Monad M] [Monad N] [MonadExceptOf PassError M]
  [MonadExceptOf PassError N] {rel : {α : Type} → M α → N α → Prop} (sim : Simulation M N rel)

include sim

theorem passes_related (ceiling : Nat) {again : M Bool} {again' : N Bool} (h : rel again again')
    {body : P → M P} {body' : P → N P} (bodies : ∀ program, rel (body program) (body' program))
    (left : Nat) (program : P) :
    rel (passes ceiling again body left program) (passes ceiling again' body' left program) := by
  induction left generalizing program with
  | zero => exact sim.throw _
  | succ left ih =>
      refine sim.bind (bodies program) fun program => sim.bind h fun again => ?_
      cases again with
      | false => exact sim.pure program
      | true => exact ih program

variable {leaf : Pass m P → P → M P} {leaf' : Pass m P → P → N P}
  (leaves : ∀ p program, rel (leaf p program) (leaf' p program))
  {ask : Predicate m → M Bool} {ask' : Predicate m → N Bool} (asks : ∀ f, rel (ask f) (ask' f))

include asks in
theorem Flow.interpret_related (flow : Flow m) (ceiling : Nat) {body : P → M P} {body' : P → N P}
    (bodies : ∀ program, rel (body program) (body' program)) (program : P) :
    rel (flow.interpret ask ceiling body program) (flow.interpret ask' ceiling body' program) := by
  cases flow with
  | linear => exact bodies program
  | condition holds =>
      refine sim.bind (asks holds) fun entered => ?_
      cases entered with
      | false => exact sim.pure program
      | true => exact bodies program
  | doWhile repeats => exact passes_related sim ceiling (asks repeats) bodies ceiling program

theorem Task.interpretAll_related {ts : List (Task m P)}
    (related : ∀ t ∈ ts, ∀ program,
      rel (t.interpret leaf ask program) (t.interpret leaf' ask' program)) (program : P) :
    rel (interpretAll leaf ask ts program) (interpretAll leaf' ask' ts program) := by
  induction ts generalizing program with
  | nil => exact sim.pure program
  | cons t ts ih =>
      refine sim.bind (related t List.mem_cons_self program) fun program => ?_
      exact ih (fun u hu => related u (List.mem_cons_of_mem t hu)) program

include leaves asks in
/-- Related passes and predicates make related trees. -/
theorem Task.interpret_related (t : Task m P) (program : P) :
    rel (t.interpret leaf ask program) (t.interpret leaf' ask' program) := by
  induction t using Task.induction generalizing program with
  | pass p => exact leaves p program
  | controller id flow options tasks ih =>
      exact Flow.interpret_related sim asks flow options.maxIteration
        (Task.interpretAll_related sim ih) program

end Related

/-! ## Direct evaluation -/

/-- An effect of a pass that is given the current properties. -/
def PassM.withProperties [Monad m] {α : Type} (f : PropertySet → m α) : PassM m α :=
  ExceptT.lift (do StateT.lift (f (← get)))

/-- The direct evaluation of a tree: its passes run, and nothing is kept of them
but the program and the properties. -/
def Controller.evaluate [Monad m] (c : Controller m P) (program : P) : PassM m P :=
  c.toTask.interpret (fun p program => p.run program) PassM.withProperties program

/-! ## Forgetting the runner's memory -/

namespace RunM

variable [Monad m] {α β : Type}

/-- From every memory, the computation of a run does what the other one does. -/
def Forgets (x : RunM m α) (y : PassM m α) : Prop :=
  ∀ state, Prod.fst <$> x.run.run state = y.run

variable [LawfulMonad m]

theorem forgets_pure (a : α) : Forgets (pure a : RunM m α) (pure a) := by
  intro state
  simp

theorem forgets_throw (error : PassError) :
    Forgets (throw error : RunM m α) (throw error : PassM m α) := by
  intro state
  simp

theorem Forgets.bind {x : RunM m α} {y : PassM m α} {f : α → RunM m β} {g : α → PassM m β}
    (h : Forgets x y) (next : ∀ a, Forgets (f a) (g a)) : Forgets (x >>= f) (y >>= g) := by
  intro state
  rw [ExceptT.run_bind, ExceptT.run_bind, ← h state, StateT.run_bind, map_bind, bind_map_left]
  apply bind_congr
  rintro ⟨result, state'⟩
  cases result with
  | error error => simp
  | ok a => exact next a state'

theorem simulation_forgets : Simulation (RunM m) (PassM m) Forgets where
  pure := forgets_pure
  bind := Forgets.bind
  throw := forgets_throw

theorem forgets_ofPass (x : PassM m α) : Forgets (ofPass x) x := by
  intro state
  simp [ofPass]

theorem forgets_modifyThe (f : RunState → RunState) :
    Forgets (modifyThe RunState f : RunM m Unit) (pure ()) := by
  intro state
  apply StateT.ext
  intro properties
  rw [StateT.run_map, run_modifyThe, map_pure]
  rfl

theorem forgets_withProperties (f : PropertySet → m α) :
    Forgets (withProperties f) (PassM.withProperties f) := by
  intro state
  simp [withProperties, PassM.withProperties]

end RunM

/-! ## Runs without skipping -/

namespace Runner

variable [Monad m] (r : Runner m P)

/-- Run a pass, count it and show it. -/
def perform (p : Pass m P) (program : P) : RunM m P := do
  let program ← RunM.ofPass (p.run program)
  modifyThe RunState (·.record p.id p.kind)
  r.observe p program
  return program

/-- Show an observation to the observer, if there is one. -/
def notify (o : Observation m P) : m Unit :=
  match r.observer with
  | none => return ()
  | some f => f o

/-- The observer, if there is one, keeps its effects out of the run. -/
def Silent : Prop := ∀ f ∈ r.observer, ∀ o, f o = pure ()

variable {r} [LawfulMonad m]

theorem run_observe (p : Pass m P) (program : P) (state : RunState) (properties : PropertySet) :
    ((r.observe p program).run.run state).run properties =
      r.notify ⟨p, program, properties, state.count⟩ >>= fun _ =>
        pure ((.ok (), state), properties) := by
  rw [observe, notify]
  cases r.observer with
  | none =>
      dsimp only
      rw [pure_bind]
      rfl
  | some f =>
      simp only [RunM.run_bind, RunM.run_getThe, pure_bind]
      exact RunM.run_withProperties _ state properties

/-- A pass that succeeds is recorded and then shown; one that fails is neither. -/
theorem run_perform (p : Pass m P) (program : P) (state : RunState) (properties : PropertySet) :
    ((r.perform p program).run.run state).run properties =
      (p.run program).run.run properties >>= fun run =>
        match run with
        | (.ok out, after) =>
            r.notify ⟨p, out, after, state.count + 1⟩ >>= fun _ =>
              pure ((.ok out, state.record p.id p.kind), after)
        | (.error error, after) => pure ((.error error, state), after) := by
  rw [perform, RunM.run_bind, RunM.run_ofPass, bind_assoc]
  refine bind_congr fun ⟨result, after⟩ => ?_
  rw [pure_bind]
  cases result with
  | error error => rfl
  | ok out =>
      simp only [RunM.run_bind, RunM.run_modifyThe, run_observe, pure_bind, bind_assoc]
      rfl

/-- A pass is skipped, or performed. -/
theorem run_runPass (p : Pass m P) (program : P) (state : RunState) (properties : PropertySet) :
    ((r.runPass p program).run.run state).run properties =
      if r.legacySkip && p.kind = .analysis && state.isValid p.id then
        pure ((.ok program, state), properties)
      else ((r.perform p program).run.run state).run properties := by
  rw [runPass, RunM.run_bind, RunM.run_getThe, pure_bind]
  dsimp only
  split
  · rfl
  · rfl

theorem runPass_eq_perform (full : r.legacySkip = false) : r.runPass = r.perform := by
  funext p program
  apply RunM.ext
  intro state properties
  simp only [runPass, full, Bool.false_and, Bool.false_eq_true, if_false]
  rw [RunM.run_bind, RunM.run_getThe, pure_bind]
  rfl

/-- A run without skipping is the interpretation in which every pass is
performed. -/
theorem execute_of_full (full : r.legacySkip = false) (root : Controller m P) (program : P) :
    r.execute root program =
      root.toTask.interpret r.perform RunM.withProperties program := by
  rw [execute_eq_interpret, runPass_eq_perform full]

theorem observe_of_silent (silent : r.Silent) (p : Pass m P) (program : P) :
    r.observe p program = pure () := by
  rw [observe]
  cases h : r.observer with
  | none => rfl
  | some f =>
      apply RunM.ext
      intro state properties
      simp only [silent f h, RunM.withProperties_pure]
      rw [RunM.run_bind, RunM.run_getThe, pure_bind]

theorem forgets_perform (silent : r.Silent) (p : Pass m P) (program : P) :
    RunM.Forgets (r.perform p program) (p.run program) := by
  have h : RunM.Forgets (r.perform p program) (p.run program >>= fun program =>
      pure () >>= fun _ => pure () >>= fun _ => pure program) := by
    simp only [perform, observe_of_silent silent]
    exact (RunM.forgets_ofPass (p.run program)).bind fun program =>
      (RunM.forgets_modifyThe _).bind fun _ =>
        (RunM.forgets_pure ()).bind fun _ => RunM.forgets_pure program
  simpa only [pure_bind, bind_pure] using h

/-- Forgetting the memory, a run without skipping is the direct evaluation. -/
theorem forgets_execute (full : r.legacySkip = false) (silent : r.Silent)
    (root : Controller m P) (program : P) :
    RunM.Forgets (r.execute root program) (root.evaluate program) := by
  rw [execute_of_full full]
  exact Task.interpret_related RunM.simulation_forgets (forgets_perform silent)
    RunM.forgets_withProperties root.toTask program

end Runner

end QuantumControl.Pipeline
