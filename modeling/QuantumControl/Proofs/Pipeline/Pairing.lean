import QuantumControl.Proofs.Pipeline.Counter
import QuantumControl.Proofs.Pipeline.Coupling
import QuantumControl.Proofs.Pipeline.Trace

/-!
# Runs from related memories

What a run does depends on the runner's memory at two places only: where an analysis may
be skipped, and where the observer is shown the count.  So two runs from different
memories have the same effects, results and properties, as long as the memories agree on
what may be skipped, and the observer does not look at the count.

The effects of the two runs are those of one computation, which has the results of both
(`Paired`).
-/

namespace QuantumControl.Pipeline

variable {m : Type → Type} {P : Type}

/-! ## Two results of one computation -/

/-- Two computations are one, which has related results for both. -/
def Paired {M : Type → Type} [Monad M] {α β : Type} (rel : α → β → Prop) (x : M α)
    (y : M β) : Prop :=
  ∃ z : M {ab : α × β // rel ab.1 ab.2}, (·.1.1) <$> z = x ∧ (·.1.2) <$> z = y

section Paired

variable {M : Type → Type} [Monad M] [LawfulMonad M] {α β γ δ : Type} {rel : α → β → Prop}
  {x : M α} {y : M β}

theorem paired_pure {a : α} {b : β} (h : rel a b) : Paired rel (pure a : M α) (pure b) :=
  ⟨pure ⟨(a, b), h⟩, map_pure _ _, map_pure _ _⟩

theorem paired_refl {rel : α → α → Prop} (refl : ∀ a, rel a a) (x : M α) : Paired rel x x :=
  ⟨(fun a => ⟨(a, a), refl a⟩) <$> x, by simp, by simp⟩

theorem Paired.bind {rel' : γ → δ → Prop} (h : Paired rel x y) {f : α → M γ} {g : β → M δ}
    (next : ∀ a b, rel a b → Paired rel' (f a) (g b)) : Paired rel' (x >>= f) (y >>= g) := by
  obtain ⟨z, rfl, rfl⟩ := h
  choose k left right using next
  refine ⟨z >>= fun ab => k ab.1.1 ab.1.2 ab.2, ?_, ?_⟩
  · rw [map_bind, bind_map_left]
    exact bind_congr fun ab => left _ _ ab.2
  · rw [map_bind, bind_map_left]
    exact bind_congr fun ab => right _ _ ab.2

/-- Functions that do not tell related results apart make equal computations. -/
theorem Paired.map_eq (h : Paired rel x y) {f : α → γ} {g : β → γ}
    (same : ∀ a b, rel a b → f a = g b) : f <$> x = g <$> y := by
  obtain ⟨z, rfl, rfl⟩ := h
  rw [← comp_map, ← comp_map]
  exact congrArg (· <$> z) (funext fun ab => same _ _ ab.2)

end Paired

/-! ## Computations of a run -/

namespace RunM

variable [Monad m] {α : Type}

/-- From related memories both computations have the same result, and leave the same properties and
related memories. -/
def Tracks (memories : RunState → RunState → Prop) (x y : RunM m α) : Prop :=
  ∀ s t p, memories s t → Paired
    (fun run run' => run.1.1 = run'.1.1 ∧ memories run.1.2 run'.1.2 ∧ run.2 = run'.2)
    ((x.run.run s).run p) ((y.run.run t).run p)

variable [LawfulMonad m] {memories : RunState → RunState → Prop}

theorem simulation_tracks : Simulation (RunM m) (RunM m) (Tracks memories) where
  pure a s t p related := paired_pure ⟨rfl, related, rfl⟩
  throw error s t p related := paired_pure ⟨rfl, related, rfl⟩
  bind {α β x y f g} h next s t p related := by
    rw [run_bind, run_bind]
    refine (h s t p related).bind ?_
    rintro ⟨⟨result, s'⟩, p'⟩ ⟨⟨_, t'⟩, _⟩ ⟨rfl, related, rfl⟩
    cases result with
    | error error => exact paired_pure ⟨rfl, related, rfl⟩
    | ok a => exact next a s' t' p' related

theorem tracks_withProperties (f : PropertySet → m α) :
    Tracks memories (withProperties f) (withProperties f) := by
  intro s t p related
  rw [run_withProperties, run_withProperties]
  refine (paired_refl (fun _ => rfl) (f p)).bind ?_
  rintro a _ rfl
  exact paired_pure ⟨rfl, related, rfl⟩

theorem tracks_ofPass (x : PassM m α) : Tracks memories (ofPass x) (ofPass x) := by
  intro s t p related
  rw [run_ofPass, run_ofPass]
  refine (paired_refl (fun _ => rfl) _).bind ?_
  rintro run _ rfl
  exact paired_pure ⟨rfl, related, rfl⟩

theorem tracks_modifyThe {f : RunState → RunState}
    (kept : ∀ s t, memories s t → memories (f s) (f t)) :
    Tracks memories (modifyThe RunState f : RunM m Unit) (modifyThe RunState f) := by
  intro s t p related
  rw [run_modifyThe, run_modifyThe]
  exact paired_pure ⟨rfl, kept s t related, rfl⟩

end RunM

/-! ## Runs -/

namespace Runner

variable [Monad m] [LawfulMonad m] {r : Runner m P} {memories : RunState → RunState → Prop}

/-- The observer, if there is one, does not look at the number of passes that ran. -/
def IgnoresCount (r : Runner m P) : Prop :=
  ∀ f ∈ r.observer, ∀ o count, f { o with count } = f o

theorem tracks_observe (ignores : r.IgnoresCount) (pass : Pass m P) (program : P) :
    RunM.Tracks memories (r.observe pass program) (r.observe pass program) := by
  intro s t p related
  -- nothing relates the counts of the two memories
  have blind : r.notify ⟨pass, program, p, s.count⟩ = r.notify ⟨pass, program, p, t.count⟩ := by
    rw [notify, notify]
    cases h : r.observer with
    | none => rfl
    | some f => exact (ignores f h ⟨pass, program, p, s.count⟩ t.count).symm
  rw [run_observe, run_observe, blind]
  refine (paired_refl (fun _ => rfl) _).bind ?_
  rintro _ _ -
  exact paired_pure ⟨rfl, related, rfl⟩

/-- Whether a pass is not to run, from what a runner remembers. -/
def skips (r : Runner m P) (s : RunState) (pass : Pass m P) : Bool :=
  r.legacySkip && pass.kind = .analysis && s.isValid pass.id

theorem tracks_runPass (ignores : r.IgnoresCount) {pass : Pass m P}
    (same : ∀ s t, memories s t → r.skips s pass = r.skips t pass)
    (kept : ∀ s t, memories s t →
      memories (s.record pass.id pass.kind) (t.record pass.id pass.kind)) (program : P) :
    RunM.Tracks memories (r.runPass pass program) (r.runPass pass program) := by
  intro s t p related
  have performed : RunM.Tracks memories (r.perform pass program) (r.perform pass program) :=
    RunM.simulation_tracks.bind (RunM.tracks_ofPass _) fun program =>
      RunM.simulation_tracks.bind (RunM.tracks_modifyThe kept) fun _ =>
        RunM.simulation_tracks.bind (tracks_observe ignores pass program) fun _ =>
          RunM.simulation_tracks.pure program
  have decided := same s t related
  rw [skips, skips] at decided
  rw [run_runPass, run_runPass, decided]
  split
  · exact paired_pure ⟨rfl, related, rfl⟩
  · exact performed s t p related

/-- Runs of a tree from related memories, if the relation stands for each of its leaves. -/
theorem tracks_execute (ignores : r.IgnoresCount) {root : Controller m P}
    (same : ∀ pass ∈ root.leaves, ∀ s t, memories s t → r.skips s pass = r.skips t pass)
    (kept : ∀ pass ∈ root.leaves, ∀ s t, memories s t →
      memories (s.record pass.id pass.kind) (t.record pass.id pass.kind)) (program : P) :
    RunM.Tracks memories (r.execute root program) (r.execute root program) := by
  have coupling : Coupling (RunM m) (RunM m) RunM.withProperties RunM.withProperties fun f g =>
      ∀ program : P, RunM.Tracks memories (f program) (g program) :=
    RunM.simulation_tracks.coupling RunM.tracks_withProperties
  rw [execute_eq_interpret]
  refine Task.interpret_coupled coupling root.toTask (fun pass mem => ?_) program
  exact tracks_runPass ignores (same pass mem) (kept pass mem)

/-- From related memories runs end with the same result and the same properties. -/
theorem outcome_eq_of_tracks {root : Controller m P} {program : P}
    (tracks : RunM.Tracks memories (r.execute root program) (r.execute root program))
    {s t : RunState} (related : memories s t) (p : PropertySet) :
    r.outcome root program s p = r.outcome root program t p := by
  rw [outcome, outcome, ← map_eq_pure_bind, ← map_eq_pure_bind]
  refine (tracks s t p related).map_eq ?_
  rintro run run' ⟨result, -, properties⟩
  rw [result, properties]

end Runner

end QuantumControl.Pipeline
