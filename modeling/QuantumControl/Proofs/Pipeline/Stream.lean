import QuantumControl.Pipeline.Runner

/-!
# What streams answer

A pull carries the reasons why pulling comes to an end, so its type names the
stream that was pulled.  This file drops the reasons: `TaskStream.answer` is
the yielded task with the rest of the stream, and there is one equation for
each kind of stream.  A runner that drives a stream only looks at the answer
(`Runner.drive_eq`).

The equation at the end of a pass (`answer_loop_of_past`) is where the loop
inside of one pull disappears: a loop over no tasks decides again and again
without yielding, and each of its decisions is the answer of a fresh pass.
-/

namespace QuantumControl.Pipeline

variable {m : Type → Type} {P : Type}

/-! ## Effects of a run -/

namespace RunM

section Laws

variable {α β : Type}

/-- Computations of a run are equal if they agree from every memory and every
property set. -/
theorem ext {x y : RunM m α}
    (h : ∀ state properties,
      (x.run.run state).run properties = (y.run.run state).run properties) : x = y := by
  apply ExceptT.ext
  apply StateT.ext
  intro state
  apply StateT.ext
  exact h state

variable [Monad m]

theorem run_bind {S : Type} (x : ExceptT PassError (StateT S (StateT PropertySet m)) α)
    (f : α → ExceptT PassError (StateT S (StateT PropertySet m)) β) (state : S)
    (properties : PropertySet) :
    ((x >>= f).run.run state).run properties =
      (x.run.run state).run properties >>= fun r =>
        match r with
        | ((.ok a, s), p) => ((f a).run.run s).run p
        | ((.error e, s), p) => pure ((.error e, s), p) := by
  rw [ExceptT.run_bind, StateT.run_bind, StateT.run_bind]
  congr 1
  funext r
  obtain ⟨⟨r, s⟩, p⟩ := r
  cases r <;> rfl

variable [LawfulMonad m]

/-- Consulting the properties leaves both the memory and the properties. -/
theorem run_withProperties (f : PropertySet → m α) (state : RunState)
    (properties : PropertySet) :
    ((withProperties f).run.run state).run properties =
      f properties >>= fun a => pure ((.ok a, state), properties) := by
  simp [withProperties]

theorem withProperties_pure (a : α) :
    withProperties (m := m) (fun _ => pure a) = pure a := by
  apply ext
  intro state properties
  rw [run_withProperties, pure_bind]
  rfl

/-- Nothing changes the properties between two steps of one consultation. -/
theorem withProperties_bind (f : PropertySet → m α) (g : α → PropertySet → m β) :
    withProperties (fun p => f p >>= fun a => g a p) =
      withProperties f >>= fun a => withProperties (g a) := by
  apply ext
  intro state properties
  rw [run_withProperties, run_bind, run_withProperties, bind_assoc, bind_assoc]
  apply bind_congr
  intro a
  rw [pure_bind]
  exact (run_withProperties (g a) state properties).symm

theorem withProperties_map (f : α → β) (g : PropertySet → m α) :
    withProperties (fun p => f <$> g p) = f <$> withProperties g := by
  have h := withProperties_bind g fun a _ => pure (f a)
  simp only [bind_pure_comp, withProperties_pure] at h
  exact h

theorem run_getThe (state : RunState) (properties : PropertySet) :
    ((getThe RunState : RunM m RunState).run.run state).run properties =
      pure ((.ok state, state), properties) := by
  have h : (getThe RunState : RunM m RunState) = ExceptT.lift get := rfl
  rw [h, ExceptT.run_lift, StateT.run_map, StateT.run_get, map_pure]
  rfl

theorem run_modifyThe (f : RunState → RunState) (state : RunState) (properties : PropertySet) :
    ((modifyThe RunState f : RunM m Unit).run.run state).run properties =
      pure ((.ok (), f state), properties) := by
  have h : (modifyThe RunState f : RunM m Unit) = ExceptT.lift (modify f) := rfl
  rw [h, ExceptT.run_lift, StateT.run_map, StateT.run_modify, map_pure]
  rfl

theorem run_ofPass (x : PassM m α) (state : RunState) (properties : PropertySet) :
    ((ofPass x).run.run state).run properties =
      x.run.run properties >>= fun r => pure ((r.1, state), r.2) := by
  simp [ofPass]

/-- Nothing runs after a failure. -/
theorem throw_bind (error : PassError) (f : α → RunM m β) :
    (throw error : RunM m α) >>= f = throw error := by
  apply ext
  intro state properties
  rw [run_bind]
  exact pure_bind _ _

end Laws

section Effectless

variable {α β : Type} {state rest : RunState} {properties after : PropertySet}

/-- After a computation that is known to succeed, the next one runs from what it leaves. -/
theorem run_bind_of_ok {x : RunM Id α} {a : α}
    (h : (x.run.run state).run properties = ((.ok a, rest), after)) (f : α → RunM Id β) :
    ((x >>= f).run.run state).run properties = ((f a).run.run rest).run after := by
  rw [run_bind, h]
  rfl

theorem run_withProperties_eq (f : PropertySet → Id α) :
    ((withProperties f).run.run state).run properties = ((.ok (f properties), state), properties) :=
  run_withProperties f state properties

end Effectless

end RunM

/-! ## Answers -/

namespace TaskStream

/-- What a stream yields to a pull, with the stream that is left. -/
abbrev Answer (m : Type → Type) (P : Type) :=
  Except PassError (Option (Task m P)) × TaskStream m P

/-- A pull without the reasons why pulling ends. -/
def Pull.answer {s : TaskStream m P} (pull : Pull s) : Answer m P := (pull.task?, pull.rest)

variable [Monad m]

/-- Ask for the next task and for the rest. -/
def answer (s : TaskStream m P) (properties : PropertySet) : m (Answer m P) :=
  Pull.answer <$> s.pull properties

variable [LawfulMonad m]

theorem answer_sequence_nil (p : PropertySet) :
    (sequence [] : TaskStream m P).answer p = pure (.ok none, finished) :=
  map_pure _ _

theorem answer_sequence_cons (t : Task m P) (ts : List (Task m P)) (p : PropertySet) :
    (sequence (t :: ts)).answer p = pure (.ok (some t), sequence ts) :=
  map_pure _ _

theorem answer_overrun (ceiling : Nat) (p : PropertySet) :
    (overrun ceiling : TaskStream m P).answer p =
      pure (.error (.maxIterationReached ceiling), finished) :=
  map_pure _ _

section Loop

variable (tasks : List (Task m P)) (repeats : Predicate m) (ceiling : Nat)

/-- Within a pass the next task is yielded. -/
theorem answer_loop_of_getElem? {t : Task m P} {position : Nat}
    (here : tasks[position]? = some t) (left : Nat) (p : PropertySet) :
    (loop tasks repeats ceiling left position).answer p =
      pure (.ok (some t), loop tasks repeats ceiling left (position + 1)) := by
  simp only [answer, pull]
  split
  · next u hu =>
      obtain rfl : u = t := Option.some.inj (hu.symm.trans here)
      exact map_pure _ _
  · next outside => rw [here] at outside; cases outside

/-- The decision after a pass that `left` more passes may follow: stop, fail, or
answer as a fresh pass does. -/
def decision (p : PropertySet) : Nat → m (Answer m P)
  | 0 => do
      if ← repeats p then return (.error (.maxIterationReached ceiling), finished)
      else return (.ok none, finished)
  | left + 1 => do
      if ← repeats p then (loop tasks repeats ceiling left 0).answer p
      else return (.ok none, finished)

/-- The decisions made inside of one pull are those of fresh passes. -/
theorem answer_afterPass (p : PropertySet) (k : Nat) {left position : Nat}
    (outside : tasks[position]? = none) (h : k ≤ left) :
    Pull.answer <$> afterPass tasks repeats ceiling left position outside p k h =
      decision tasks repeats ceiling p k := by
  induction k generalizing left position with
  | zero =>
      simp only [afterPass, decision, map_bind]
      apply bind_congr
      intro again
      cases again <;> exact map_pure _ _
  | succ k ih =>
      simp only [afterPass, decision, map_bind]
      apply bind_congr
      intro again
      cases again with
      | false => exact map_pure _ _
      | true =>
          simp only [if_true]
          split
          · next t first =>
              rw [answer_loop_of_getElem? tasks repeats ceiling first k p]
              exact map_pure _ _
          · next noTask =>
              -- both the old pass and the fresh one are over: one more decision either way
              rw [ih, answer, pull]
              split
              · next t first => rw [noTask] at first; cases first
              · exact (ih _ (Nat.le_refl k)).symm

/-- Past the last task of a pass a loop decides. -/
theorem answer_loop_of_past {position : Nat} (past : tasks[position]? = none) (left : Nat)
    (p : PropertySet) :
    (loop tasks repeats ceiling left position).answer p =
      decision tasks repeats ceiling p left := by
  rw [answer, pull]
  split
  · next t here => rw [past] at here; cases here
  · exact answer_afterPass tasks repeats ceiling p left _ (Nat.le_refl left)

end Loop

end TaskStream

end QuantumControl.Pipeline
