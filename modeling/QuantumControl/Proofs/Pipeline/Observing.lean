import QuantumControl.Pipeline.Manager
import QuantumControl.Proofs.Pipeline.Chronicle

/-!
# Observers that only look on

A callback has a state of its own, beside the effects of the passes and predicates, which
do not touch it (`Pass.beside`).  A run with a callback is then the run without one, and
next to it the state that the callback makes of the chronicle: it is shown each pass that
ran and succeeded, with what this returned and left and with its number in the run
(`Chronicle.observations`), and nothing else.

Both runs follow from one `Simulation` by a run that keeps a chronicle and has no observer.
It asks of the observer only that from the state that goes with a chronicle each
observation leads to the state that goes with the longer one (`Sees`).
-/

namespace QuantumControl.Pipeline

variable {m : Type → Type} {P : Type} (σ : Type)

/-! ## A state beside a pipeline -/

section Beside

variable [Monad m]

def Pass.beside (p : Pass m P) : Pass (StateT σ m) P where
  id := p.id
  name := p.name
  kind := p.kind
  run program := ExceptT.mk fun properties => StateT.lift ((p.run program).run.run properties)

def Predicate.beside (holds : Predicate m) : Predicate (StateT σ m) :=
  fun properties => StateT.lift (holds properties)

/-- Tasks whose passes and predicates leave a further state alone. -/
def Task.besideAll (tasks : List (Task m P)) : List (Task (StateT σ m) P) :=
  translateAll (Pass.beside σ) (Predicate.beside σ) tasks

def Controller.beside (c : Controller m P) : Controller (StateT σ m) P :=
  c.translate (Pass.beside σ) (Predicate.beside σ)

/-- What is to be seen of a pass that ran and succeeded. -/
def Execution.observation (e : Execution m P) (count : Nat) : Observation (StateT σ m) P :=
  ⟨e.pass.beside σ, e.program, e.properties, count⟩

/-- What is to be seen of a run: each entry of its chronicle, in order and numbered from one. -/
def Chronicle.observations (h : Chronicle m P) : List (Observation (StateT σ m) P) :=
  h.mapIdx fun k e => e.observation σ (k + 1)

theorem Chronicle.observations_append (h : Chronicle m P) (e : Execution m P) :
    observations σ (h ++ [e]) = h.observations σ ++ [e.observation σ (h.length + 1)] :=
  List.mapIdx_concat

theorem Chronicle.length_observations (h : Chronicle m P) :
    (h.observations σ).length = h.memory.count := by
  rw [observations, List.length_mapIdx, count_memory]

theorem Chronicle.observations_getElem? {h : Chronicle m P} {k : Nat} {e : Execution m P}
    (entry : h[k]? = some e) : (h.observations σ)[k]? = some (e.observation σ (k + 1)) := by
  rw [observations, List.getElem?_mapIdx, entry, Option.map_some]

end Beside

/-! ## Runs that are looked on -/

variable {σ} [Monad m]

/-- From the state that goes with a chronicle, the observer makes of each observation the state that
goes with the longer one. -/
def Runner.Sees (r : Runner (StateT σ m) P) (seen : Chronicle m P → σ) : Prop :=
  ∀ h e, (r.notify (e.observation σ (h.length + 1))).run (seen h) = pure ((), seen (h ++ [e]))

theorem Runner.sees_of_none (legacySkip : Bool) (s : σ) :
    ({ legacySkip } : Runner (StateT σ m) P).Sees fun _ => s := fun _ _ => rfl

/-- A callback has come to what it makes of the observations one after another. -/
theorem Runner.sees_of_callback (legacySkip : Bool) (callback : Observation (StateT σ m) P → σ → σ)
    (s : σ) :
    ({ observer := some fun o => modify (callback o), legacySkip } : Runner (StateT σ m) P).Sees
      fun h => (h.observations σ).foldl (fun s o => callback o s) s := by
  intro h e
  dsimp only
  rw [Chronicle.observations_append, List.foldl_append]
  rfl

/-- The end of a run, with the memory and the state that go with its chronicle. -/
def Chronicle.looked {α : Type} (seen : Chronicle m P → σ)
    (run : (Except PassError α × Chronicle m P) × PropertySet) :
    ((Except PassError α × RunState) × PropertySet) × σ :=
  (recalled run, seen run.1.2)

/-- From the memory of a chronicle and the state that goes with it, a run does what the one that
keeps the chronicle does. -/
def LooksOn {α : Type} (seen : Chronicle m P → σ) (x : RunM (StateT σ m) α)
    (y : ChronicleM m P α) : Prop :=
  ∀ h p, ((x.run.run (Chronicle.memory h)).run p).run (seen h) =
    Chronicle.looked seen <$> (y.run.run h).run p

variable [LawfulMonad m] {seen : Chronicle m P → σ}

theorem simulation_looksOn : Simulation (RunM (StateT σ m)) (ChronicleM m P) (LooksOn seen) where
  pure a h p := (map_pure (f := m) (Chronicle.looked seen) ((.ok a, h), p)).symm
  throw error h p := (map_pure (f := m) (Chronicle.looked seen) ((.error error, h), p)).symm
  bind {α β x y f g} first next h p := by
    rw [RunM.run_bind, RunM.run_bind, StateT.run_bind, first, map_bind, bind_map_left]
    refine bind_congr fun ⟨⟨result, h'⟩, p'⟩ => ?_
    cases result with
    | error error => exact (map_pure (Chronicle.looked seen) ((.error error, h'), p')).symm
    | ok a => exact next a h' p'

theorem looksOn_ask {α : Type} (f : PropertySet → m α) :
    LooksOn seen (RunM.withProperties fun p => StateT.lift (f p))
      (ChronicleM.ask f : ChronicleM m P α) := by
  intro h p
  rw [RunM.run_withProperties, ChronicleM.run_ask, StateT.run_bind, StateT.run_lift, bind_assoc,
    map_bind]
  refine bind_congr fun a => ?_
  rw [pure_bind]
  exact (map_pure (Chronicle.looked seen) ((.ok a, h), p)).symm

namespace Runner

theorem looksOn_follow {r : Runner (StateT σ m) P} (sees : r.Sees seen) (pass : Pass m P)
    (program : P) :
    LooksOn seen (r.runPass (pass.beside σ) program)
      (({ legacySkip := r.legacySkip } : Runner m P).follow pass program) := by
  intro h p
  rw [run_runPass, run_follow, Chronicle.isValid_memory]
  show StateT.run (if r.legacySkip && pass.kind = .analysis && h.recent pass.id then _ else _) _ = _
  split
  · exact (map_pure (Chronicle.looked seen) ((.ok program, h), p)).symm
  · rw [run_perform, StateT.run_bind, map_bind]
    show ((pass.run program).run.run p >>= fun run => pure (run, seen h)) >>= _ = _
    rw [bind_assoc]
    refine bind_congr fun ⟨result, after⟩ => ?_
    rw [pure_bind]
    cases result with
    | error error => exact (map_pure (Chronicle.looked seen) ((.error error, h), after)).symm
    | ok out =>
        dsimp only
        have shown := sees h ⟨pass, out, after⟩
        rw [Execution.observation] at shown
        rw [Chronicle.count_memory, StateT.run_bind, shown, pure_bind]
        -- the run that keeps the chronicle has nobody to show the pass to
        show _ = Chronicle.looked seen <$> (pure () >>= fun _ => _)
        rw [pure_bind, map_pure, Chronicle.looked, Chronicle.recalled, Chronicle.memory_append]
        rfl

theorem looksOn_execute {r : Runner (StateT σ m) P} (sees : r.Sees seen) (root : Controller m P)
    (program : P) :
    LooksOn seen (r.execute (root.beside σ) program)
      (({ legacySkip := r.legacySkip } : Runner m P).chronicle root program) := by
  have translated : (root.beside σ).toTask =
      root.toTask.translate (Pass.beside σ) (Predicate.beside σ) := rfl
  rw [execute_eq_interpret, translated, Task.interpret_translate]
  exact Task.interpret_related simulation_looksOn (looksOn_follow sees) looksOn_ask root.toTask
    program

end Runner

/-! ## Managers -/

namespace PassManager

variable (pm : PassManager (StateT σ m) P) (tasks : List (Task m P))

/-- The run of a manager that keeps a chronicle and has no callback. -/
def chronicle (program : P) : ChronicleM m P P :=
  ({ legacySkip := pm.legacySkip } : Runner m P).chronicle ⟨⟨0⟩, .linear, pm.options, tasks⟩ program

/-- The manager and the end of its run, as the chronicle of the run has them. -/
def ended (run : (Except PassError P × Chronicle m P) × PropertySet) :
    (Except PassError P × PassManager (StateT σ m) P) × PropertySet :=
  ((run.1.1, { pm with tasks := Task.besideAll σ tasks, state := run.1.2.memory }), run.2)

theorem run_of_sees {observer : Option (Observation (StateT σ m) P → StateT σ m Unit)}
    (sees : (pm.runner observer).Sees seen) (program : P) (p : PropertySet) :
    (({ pm with tasks := Task.besideAll σ tasks }.run observer program).run p).run (seen []) =
      (fun run => (pm.ended tasks run, seen run.1.2)) <$>
        ((pm.chronicle tasks program).run.run []).run p := by
  have looks := Runner.looksOn_execute sees ⟨⟨0⟩, .linear, pm.options, tasks⟩ program [] p
  rw [run, StateT.run_bind, StateT.run_bind]
  refine (congrArg (· >>= _) looks).trans ?_
  rw [bind_map_left, map_eq_pure_bind]
  rfl

/-- A callback with a state of its own changes nothing: with it and without it a run comes to the
same program or error, properties and memory.  Its state has been shown each pass that ran and
succeeded, once and in order, as the pass left the program and the properties, numbered from one;
so it was shown as many passes as the memory counts, however the run ended. -/
theorem run_observed (callback : Observation (StateT σ m) P → σ → σ) (program : P)
    (p : PropertySet) (s : σ) :
    let piped : PassManager (StateT σ m) P := { pm with tasks := Task.besideAll σ tasks }
    let run := ((pm.chronicle tasks program).run.run []).run p
    let watched := ((piped.run (some fun o => modify (callback o)) program).run p).run s
    let alone := ((piped.run none program).run p).run s
    Prod.fst <$> watched = Prod.fst <$> alone ∧
      alone = (fun run => (pm.ended tasks run, s)) <$> run ∧
      watched = (fun run => (pm.ended tasks run,
        (run.1.2.observations σ).foldl (fun s o => callback o s) s)) <$> run ∧
      ∀ h : Chronicle m P, (h.observations σ).length = h.memory.count ∧
        ∀ (k : Nat) e, h[k]? = some e → (h.observations σ)[k]? =
          some ⟨e.pass.beside σ, e.program, e.properties, k + 1⟩ := by
  intro piped run watched alone
  have lone : alone = (fun run => (pm.ended tasks run, s)) <$> run :=
    pm.run_of_sees tasks (Runner.sees_of_none pm.legacySkip s) program p
  have seen : watched = (fun run => (pm.ended tasks run,
      (run.1.2.observations σ).foldl (fun s o => callback o s) s)) <$> run :=
    pm.run_of_sees tasks (Runner.sees_of_callback pm.legacySkip callback s) program p
  refine ⟨?_, lone, seen, fun h => ⟨h.length_observations σ, fun k e => h.observations_getElem? σ⟩⟩
  rw [lone, seen, ← comp_map, ← comp_map]
  rfl

/-- The passes that ran before a loop failed at its ceiling, as a callback notes them: which pass,
the number that it returned, and how many passes there had been. -/
theorem run_observed_overgrown :
    let pm : PassManager (StateT (List (Nat × Nat × Nat)) Id) Nat := { legacySkip := true }
    let piped := { pm with tasks := Task.besideAll _ [overgrown.toTask] }
    let callback (o : Observation (StateT (List (Nat × Nat × Nat)) Id) Nat)
        (noted : List (Nat × Nat × Nat)) := noted ++ [(o.pass.id.val, o.program, o.count)]
    let watched := (((piped.run (some fun o => modify (callback o)) 0).run .empty).run []).run
    let alone := (((piped.run none 0).run .empty).run []).run
    watched.1.1.1 = .error (.maxIterationReached 2) ∧ watched.1.1.2.state.count = 5 ∧
      watched.2 = [(1, 0, 1), (2, 1, 2), (1, 1, 3), (2, 2, 4), (1, 2, 5)] ∧
      alone.1 = watched.1 ∧ alone.2 = [] := by
  intro pm piped callback watched alone
  obtain ⟨same, lone, seen, -⟩ := pm.run_observed [overgrown.toTask] callback 0 .empty []
  have noted : watched = _ := seen
  have unnoted : alone = _ := lone
  refine ⟨?_, ?_, ?_, same.symm, ?_⟩
  · rw [noted]
    rfl
  · rw [noted]
    rfl
  · rw [noted]
    rfl
  · rw [unnoted]
    rfl

end PassManager

end QuantumControl.Pipeline
