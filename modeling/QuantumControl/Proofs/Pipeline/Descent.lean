import QuantumControl.Proofs.Pipeline.Observing
import QuantumControl.Proofs.Pipeline.Pairing

/-!
# Controllers as tasks

A controller can be run in two ways: as a task it starts a runner of its own, which is gone when
the task has ended; and a runner that meets it among the tasks of a stream descends into it, with
the memory that it has by then.

A runner that skips nothing looks at its memory nowhere.  So from any memory it comes to the same
program or error and the same properties as the runner that starts afresh, and its count is ahead
of that one's by what it was before (`Runner.descend_of_count`).  Nor does it matter whether it has
an observer, as long as this keeps to a state of its own (`Runner.shadows_execute`).
-/

namespace QuantumControl.Pipeline

variable {m : Type → Type} {P : Type}

namespace Runner

variable [Monad m]

/-- What a runner has when it comes back from a controller: the program or the error, the
properties, and its count. -/
def descend (r : Runner m P) (c : Controller m P) (program : P) (state : RunState)
    (p : PropertySet) : m ((Except PassError P × PropertySet) × Nat) :=
  (fun run => ((run.1.1, run.2), run.1.2.count)) <$> ((r.execute c program).run.run state).run p

/-- A runner that meets a controller executes it and then goes on with the stream. -/
theorem proceed_controller (r : Runner m P) (c : Controller m P) (rest : TaskStream m P)
    (program : P) :
    r.proceed program (.ok (some c.toTask), rest) = r.execute c program >>= r.drive rest := rfl

variable [LawfulMonad m]

/-- A task that is a controller comes to what a fresh runner does. -/
theorem fst_descend_empty (c : Controller m P) (program : P) (p : PropertySet) :
    Prod.fst <$> ({} : Runner m P).descend c program RunState.empty p =
      (c.toTask.run program).run.run p := by
  rw [descend, ← comp_map, map_eq_pure_bind]
  rfl

/-! ## Memories -/

/-- From a memory with a higher count the same runner is ahead by the same number at the end. -/
theorem descend_of_count (c : Controller m P) (program : P) (state : RunState) (p : PropertySet) :
    ({} : Runner m P).descend c program state p =
      (fun run => (run.1, state.count + run.2)) <$>
        ({} : Runner m P).descend c program RunState.empty p := by
  have tracks : RunM.Tracks (fun s t => s.count = state.count + t.count)
      (({} : Runner m P).execute c program) (({} : Runner m P).execute c program) := by
    refine tracks_execute (fun f hf => absurd hf (Option.not_mem_none f))
      (fun pass _ s t _ => rfl) ?_ program
    intro pass _ s t ahead
    exact congrArg (· + 1) ahead
  rw [descend, descend, ← comp_map]
  refine (tracks state RunState.empty p rfl).map_eq ?_
  rintro run run' ⟨result, ahead, properties⟩
  rw [Function.comp_apply, result, ahead, properties]

/-! ## Observers -/

theorem perform_of_silent {r : Runner m P} (silent : r.Silent) :
    r.perform = ({} : Runner m P).perform := by
  have none : ({} : Runner m P).Silent := fun f hf => absurd hf (Option.not_mem_none f)
  funext pass program
  simp only [perform, observe_of_silent silent, observe_of_silent none]

/-- An observer that keeps its effects out of the run might as well not be there. -/
theorem execute_of_silent {r : Runner m P} (full : r.legacySkip = false) (silent : r.Silent)
    (c : Controller m P) (program : P) :
    r.execute c program = ({} : Runner m P).execute c program := by
  rw [execute_of_full full, perform_of_silent silent, ← execute_of_full rfl]

end Runner

section Beside

variable {σ : Type} [Monad m]

/-- The observer, if there is one, changes nothing but a state of its own. -/
def Runner.Discreet (r : Runner (StateT σ m) P) : Prop :=
  ∀ o s, Prod.fst <$> (r.notify o).run s = (pure () : m Unit)

/-- From every further state a run does what another one does without it. -/
def Shadows {α : Type} (x : RunM (StateT σ m) α) (y : RunM m α) : Prop :=
  ∀ state p s, Prod.fst <$> ((x.run.run state).run p).run s = (y.run.run state).run p

variable [LawfulMonad m]

theorem Runner.discreet_of_callback (callback : Observation (StateT σ m) P → σ → σ) :
    ({ observer := some fun o => modify (callback o) } : Runner (StateT σ m) P).Discreet :=
  fun _ _ => map_pure _ _

theorem simulation_shadows : Simulation (RunM (StateT σ m)) (RunM m) Shadows where
  pure a state p s := map_pure _ _
  throw error state p s := map_pure _ _
  bind {α β x y f g} first next state p s := by
    rw [RunM.run_bind, RunM.run_bind, StateT.run_bind, ← first state p s, map_bind, bind_map_left]
    refine bind_congr fun ⟨⟨⟨result, state'⟩, p'⟩, s'⟩ => ?_
    cases result with
    | error error => exact map_pure _ _
    | ok a => exact next a state' p' s'

theorem shadows_ask {α : Type} (f : PropertySet → m α) :
    Shadows (RunM.withProperties fun p => StateT.lift (f p) : RunM (StateT σ m) α)
      (RunM.withProperties f) := by
  intro state p s
  rw [RunM.run_withProperties, RunM.run_withProperties, StateT.run_bind, StateT.run_lift,
    bind_assoc, map_bind]
  refine bind_congr fun a => ?_
  rw [pure_bind]
  exact map_pure _ _

namespace Runner

theorem shadows_perform {r : Runner (StateT σ m) P} (discreet : r.Discreet) (pass : Pass m P)
    (program : P) :
    Shadows (r.perform (pass.beside σ) program) (({} : Runner m P).perform pass program) := by
  intro state p s
  rw [run_perform, run_perform, StateT.run_bind, map_bind]
  show ((pass.run program).run.run p >>= fun run => pure (run, s)) >>= _ = _
  rw [bind_assoc]
  refine bind_congr fun ⟨result, after⟩ => ?_
  rw [pure_bind]
  cases result with
  | error error => exact map_pure _ _
  | ok out =>
      have shown := discreet ⟨pass.beside σ, out, after, state.count + 1⟩ s
      -- the runner without an observer has nobody to show the pass to
      show Prod.fst <$> StateT.run (r.notify _ >>= fun _ => pure _) s = pure () >>= fun _ => pure _
      rw [StateT.run_bind, map_bind, ← shown, bind_map_left]
      exact bind_congr fun run => map_pure _ _

theorem shadows_execute {r : Runner (StateT σ m) P} (full : r.legacySkip = false)
    (discreet : r.Discreet) (c : Controller m P) (program : P) :
    Shadows (r.execute (c.beside σ) program) (({} : Runner m P).execute c program) := by
  have translated : (c.beside σ).toTask =
      c.toTask.translate (Pass.beside σ) (Predicate.beside σ) := rfl
  rw [execute_of_full full, execute_of_full rfl, translated, Task.interpret_translate]
  exact Task.interpret_related simulation_shadows (shadows_perform discreet) shadows_ask c.toTask
    program

end Runner

end Beside

/-- Whatever stream yields a controller, a runner executes it and then goes on with the stream.
From any memory, a runner that skips nothing comes to the same program or error and the same
properties as the controller does when it is run as a task, and it has counted as many passes more
as that run does; and so does one with an observer that changes nothing but a state of its own. -/
theorem descend_exact [Monad m] [LawfulMonad m] (c : Controller m P) (program : P)
    (p : PropertySet) :
    let alone := ({} : Runner m P).descend c program RunState.empty p
    Prod.fst <$> alone = (c.toTask.run program).run.run p ∧
      (∀ (r : Runner m P) (s : TaskStream m P),
        r.drive s program = RunM.withProperties s.answer >>= r.proceed program ∧
          ∀ rest, r.proceed program (.ok (some c.toTask), rest) =
            r.execute c program >>= r.drive rest) ∧
      (∀ r : Runner m P, r.legacySkip = false → r.Silent → ∀ state,
        r.descend c program state p = (fun run => (run.1, state.count + run.2)) <$> alone) ∧
      ∀ (σ : Type) (r : Runner (StateT σ m) P), r.legacySkip = false → r.Discreet → ∀ state seen,
        Prod.fst <$> (r.descend (c.beside σ) program state p).run seen =
          (fun run => (run.1, state.count + run.2)) <$> alone := by
  intro alone
  refine ⟨Runner.fst_descend_empty c program p, fun r s => ⟨r.drive_eq s program, fun rest =>
    r.proceed_controller c rest program⟩, fun r full silent state => ?_,
    fun σ r full discreet state seen => ?_⟩
  · rw [Runner.descend, Runner.execute_of_silent full silent]
    exact Runner.descend_of_count c program state p
  · have shadowed := Runner.shadows_execute full discreet c program state p seen
    rw [← Runner.descend_of_count, Runner.descend, Runner.descend, ← shadowed, StateT.run_map,
      ← comp_map, ← comp_map]
    rfl

/-- A loop that fails at its ceiling, after eight passes: as a task, in a runner that has counted
forty passes before, and in such a one with a callback that notes the counts. -/
theorem descend_exact_overgrown :
    let noting : Runner (StateT (List Nat) Id) Nat :=
      { observer := some fun o => modify fun noted => noted ++ [o.count] }
    let state : RunState := ⟨40, [⟨1⟩]⟩
    let alone := ((overgrown.toTask.run 0).run.run .empty).run
    let met := (({} : Runner Id Nat).descend overgrown 0 state .empty).run
    let noted := ((noting.descend (overgrown.beside _) 0 state .empty).run []).run
    alone.1 = .error (.maxIterationReached 2) ∧ met = (alone, 48) ∧ noted.1 = (alone, 48) := by
  intro noting state alone met noted
  have silent : ({} : Runner Id Nat).Silent := fun f hf => absurd hf (Option.not_mem_none f)
  have discreet : noting.Discreet :=
    Runner.discreet_of_callback fun o noted => noted ++ [o.count]
  obtain ⟨task, -, unseen, seen⟩ := descend_exact overgrown 0 .empty
  have ran : (({} : Runner Id Nat).descend overgrown 0 RunState.empty .empty).run.1.1 =
        .error (.maxIterationReached 2) ∧
      (({} : Runner Id Nat).descend overgrown 0 RunState.empty .empty).run.2 = 8 := by
    rw [Runner.descend, Runner.execute_of_full rfl]
    exact ⟨rfl, rfl⟩
  have fresh : (({} : Runner Id Nat).descend overgrown 0 RunState.empty .empty).run = (alone, 8) :=
    Prod.ext task ran.2
  rw [fresh] at ran
  refine ⟨ran.1, ?_, ?_⟩
  · exact (unseen {} rfl silent state).trans (congrArg _ fresh)
  · exact (seen _ noting rfl discreet state []).trans (congrArg _ fresh)

end QuantumControl.Pipeline
