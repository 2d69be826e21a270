import Mathlib.Data.List.Forall2
import QuantumControl.Proofs.Pipeline.Budget
import QuantumControl.Proofs.Pipeline.Coupling

/-!
# Higher ceilings

A loop looks at its ceiling at one place: where another pass is asked for and none is left.
There it fails, so whatever a higher ceiling makes of the rest comes after the end of the
lower one's run.  What relates the two runs of a tree is therefore that the second goes on
from where the first ends, and does nothing more unless that end is the failure of a
ceiling (`Continues`).  This is kept by all steps of an interpretation, so ceilings may be
raised independently at all levels of a tree (`Task.Raises`), and passes and predicates
may have effects of any kind.
-/

namespace QuantumControl.Pipeline

variable {m : Type → Type} {P : Type}

/-! ## Going on after an end -/

/-- The second computation goes on from where the first one ends, and there is nothing more to do
after an end that is finished. -/
def Continues {M : Type → Type} [Monad M] {α : Type} (finished : α → Prop) (x y : M α) : Prop :=
  ∃ z : M {e : α × M α // finished e.1 → e.2 = pure e.1},
    (·.1.1) <$> z = x ∧ (z >>= (·.1.2)) = y

section Continues

variable {M : Type → Type} [Monad M] [LawfulMonad M] {α β : Type} {finished : α → Prop} {x y : M α}

theorem continues_pure {a : α} (h : finished a → y = pure a) :
    Continues finished (pure a) y :=
  ⟨pure ⟨(a, y), h⟩, map_pure _ _, pure_bind _ _⟩

theorem continues_refl (x : M α) : Continues finished x x :=
  ⟨(fun a => ⟨(a, pure a), fun _ => rfl⟩) <$> x, by simp, by simp⟩

theorem Continues.bind {finished' : β → Prop} (h : Continues finished x y) {f g : α → M β}
    (next : ∀ a rest, (finished a → rest = pure a) → Continues finished' (f a) (rest >>= g)) :
    Continues finished' (x >>= f) (y >>= g) := by
  obtain ⟨z, rfl, rfl⟩ := h
  choose k ends goesOn using next
  refine ⟨z >>= fun e => k e.1.1 e.1.2 e.2, ?_, ?_⟩
  · rw [map_bind, bind_map_left]
    exact bind_congr fun e => ends _ _ e.2
  · rw [bind_assoc, bind_assoc]
    exact bind_congr fun e => goesOn _ _ e.2

/-- A state is part of the end. -/
theorem Continues.run {σ : Type} {x y : StateT σ M α} (h : Continues finished x y) (s : σ) :
    Continues (fun run => finished run.1) (x.run s) (y.run s) := by
  obtain ⟨z, rfl, rfl⟩ := h
  refine ⟨(fun e => ⟨((e.1.1.1, e.2), e.1.1.2.run e.2), fun done => ?_⟩) <$> z.run s, ?_, ?_⟩
  · rw [e.1.2 done, StateT.run_pure]
  · rw [StateT.run_map, ← comp_map]
    rfl
  · rw [StateT.run_bind, bind_map_left]

/-- Without effects a finished end is the end of both. -/
theorem Continues.eq_of_finished {x y : Id α} (h : Continues finished x y)
    (done : finished x.run) : y = x := by
  obtain ⟨z, rfl, rfl⟩ := h
  exact z.run.2 done

end Continues

/-- The end of a run, or of a part of one, that no ceiling has cut off. -/
def Finished {α : Type} (ended : Ending α) : Prop :=
  ∀ n, ended.1.1 ≠ .error (.maxIterationReached n)

theorem finished_ok {α : Type} {a : α} {s : RunState} {p : PropertySet} :
    Finished ((.ok a, s), p) := fun _ => nofun

theorem finished_error {α : Type} {error : PassError} {s : RunState} {p : PropertySet} :
    Finished (((.error error : Except PassError α), s), p) ↔
      ∀ n, error ≠ .maxIterationReached n := by
  simp [Finished]

namespace RunM

variable [Monad m] {α β : Type}

/-- From every memory and all properties the second computation goes on from where the first one
ends, and does nothing more unless a ceiling has cut the first one off. -/
def ExtendsTo (x y : RunM m α) : Prop :=
  ∀ state p, Continues Finished ((x.run.run state).run p) ((y.run.run state).run p)

variable [LawfulMonad m]

theorem extendsTo_refl (x : RunM m α) : ExtendsTo x x := fun _ _ => continues_refl _

/-- What a ceiling has cut off may go on in any way. -/
theorem extendsTo_of_overrun (ceiling : Nat) (y : RunM m α) :
    ExtendsTo (throw (.maxIterationReached ceiling)) y :=
  fun _ _ => continues_pure fun done => absurd rfl (done ceiling)

theorem ExtendsTo.bind {x y : RunM m α} (h : ExtendsTo x y) {f g : α → RunM m β}
    (next : ∀ a, ExtendsTo (f a) (g a)) : ExtendsTo (x >>= f) (y >>= g) := by
  intro state p
  rw [run_bind, run_bind]
  refine (h state p).bind ?_
  rintro ⟨⟨result, s⟩, q⟩ rest same
  cases result with
  | error error =>
      -- a failure that is no ceiling's is that of both; after a ceiling's all is open
      refine continues_pure fun done => ?_
      rw [same (finished_error.2 (finished_error.1 done)), pure_bind]
  | ok a =>
      rw [same finished_ok, pure_bind]
      exact next a s q

end RunM

/-! ## Raised trees -/

/-- The second tree is the first one with equal or higher ceilings.  Its controllers may be other
ones, its passes are the same. -/
inductive Task.Raises : Task m P → Task m P → Prop
  | pass (p : Pass m P) : Raises (.pass p) (.pass p)
  | controller {id id' : TaskId} {flow : Flow m} {options options' : ControllerOptions}
      {tasks tasks' : List (Task m P)} (le : options.maxIteration ≤ options'.maxIteration)
      (raised : List.Forall₂ Raises tasks tasks') :
      Raises (.controller id flow options tasks) (.controller id' flow options' tasks')

section Raised

variable {n : Type → Type} [Monad n] [LawfulMonad n]

theorem passes_raised {again : RunM n Bool} {body body' : P → RunM n P}
    (bodies : ∀ program, RunM.ExtendsTo (body program) (body' program)) (ceiling ceiling' : Nat)
    {left left' : Nat} (le : left ≤ left') (program : P) :
    RunM.ExtendsTo (passes ceiling again body left program)
      (passes ceiling' again body' left' program) := by
  induction left generalizing left' program with
  | zero => exact RunM.extendsTo_of_overrun _ _
  | succ left ih =>
      obtain ⟨left', rfl⟩ := Nat.exists_eq_add_of_le' le
      refine (bodies program).bind fun program => (RunM.extendsTo_refl again).bind fun more => ?_
      cases more with
      | false => exact RunM.extendsTo_refl _
      | true => exact ih (Nat.le_of_add_le_add_right le) program

variable {leaf : Pass m P → P → RunM n P} {ask : Predicate m → RunM n Bool}

theorem Flow.interpret_raised (flow : Flow m) {ceiling ceiling' : Nat} (le : ceiling ≤ ceiling')
    {body body' : P → RunM n P} (bodies : ∀ program, RunM.ExtendsTo (body program) (body' program))
    (program : P) :
    RunM.ExtendsTo (flow.interpret ask ceiling body program)
      (flow.interpret ask ceiling' body' program) := by
  cases flow with
  | linear => exact bodies program
  | condition holds =>
      refine (RunM.extendsTo_refl (ask holds)).bind fun entered => ?_
      cases entered with
      | false => exact RunM.extendsTo_refl _
      | true => exact bodies program
  | doWhile repeats => exact passes_raised bodies ceiling ceiling' le program

theorem Task.interpretAll_raised {ts ts' : List (Task m P)}
    (raised : List.Forall₂ (fun t t' => ∀ program,
      RunM.ExtendsTo (t.interpret leaf ask program) (t'.interpret leaf ask program)) ts ts')
    (program : P) :
    RunM.ExtendsTo (interpretAll leaf ask ts program) (interpretAll leaf ask ts' program) := by
  induction raised generalizing program with
  | nil => exact RunM.extendsTo_refl _
  | cons head _ ih => exact (head program).bind ih

/-- Whatever passes and predicates mean, a tree extends to the raised one. -/
theorem Task.interpret_raised {t t' : Task m P} (raises : t.Raises t') (program : P) :
    RunM.ExtendsTo (t.interpret leaf ask program) (t'.interpret leaf ask program) := by
  induction t using Task.induction generalizing t' program with
  | pass p =>
      cases raises
      exact RunM.extendsTo_refl _
  | controller id flow options tasks ih =>
      cases raises with
      | controller le raised =>
          have each := (List.forall₂_and_left _ _).2 ⟨fun t mem => @ih t mem, raised⟩
          refine Flow.interpret_raised flow le (Task.interpretAll_raised ?_) program
          exact each.imp fun t t' ⟨ih, raises⟩ => ih raises

end Raised

/-! ## Raised runs -/

section Execute

variable [Monad m] [LawfulMonad m] {root raised : Controller m P}
  (raises : root.toTask.Raises raised.toTask)

include raises

theorem Runner.extendsTo_execute (r : Runner m P) (program : P) :
    RunM.ExtendsTo (r.execute root program) (r.execute raised program) := by
  rw [execute_eq_interpret, execute_eq_interpret]
  exact Task.interpret_raised raises program

/-- The trees may keep logs. -/
theorem Runner.extendsTo_execute_logged (r : Runner (Logged P m) P) (program : P) :
    RunM.ExtendsTo (r.execute root.logged program) (r.execute raised.logged program) := by
  have low := Task.interpret_logged r.runPass RunM.withProperties root.toTask program
  have high := Task.interpret_logged r.runPass RunM.withProperties raised.toTask program
  rw [execute_eq_interpret, execute_eq_interpret]
  exact low.symm ▸ high.symm ▸ Task.interpret_raised raises program

end Execute

/-- In a pipeline whose passes, predicates and observer may keep a state of their own, a run that no
ceiling has cut off is, in the raised tree, the same run: it ends with the same program or error,
count, valid passes, properties and state of its passes, whether it skips or not; and with the
same log of the passes that started and the predicates that were evaluated. -/
theorem execute_raised {σ : Type} {root raised : Controller (StateM σ) P}
    (raises : root.toTask.Raises raised.toTask) (program : P) (state : RunState)
    (p : PropertySet) (s : σ) :
    (∀ r : Runner (StateM σ) P,
      let run := (((r.execute root program).run.run state).run p).run s
      Finished run.run.1 → (((r.execute raised program).run.run state).run p).run s = run) ∧
    ∀ r : Runner (Logged P (StateM σ)) P,
      let run := ((((r.execute root.logged program).run.run state).run p).run []).run s
      Finished run.run.1.1 →
        ((((r.execute raised.logged program).run.run state).run p).run []).run s = run := by
  constructor
  · intro r run done
    exact ((r.extendsTo_execute raises program state p).run s).eq_of_finished done
  · intro r run done
    have extended := r.extendsTo_execute_logged raises program state p
    exact ((extended.run []).run s).eq_of_finished done

/-- Two loops, one within the other, that use up a supply: the inner one as long as it is odd, the
outer one as long as it lasts. -/
def spending (outer inner : Nat) : Controller (StateM Nat) Nat where
  id := ⟨0⟩
  flow := .doWhile fun _ => return (← get) != 0
  options := { maxIteration := outer }
  tasks := [.controller ⟨1⟩ (.doWhile fun _ => return (← get) % 2 != 0) { maxIteration := inner }
    [.pass (.transformation ⟨2⟩ "spend" fun n => do
      modifyThe Nat (· - 1)
      return n + 1)]]

theorem raises_spending {outer outer' inner inner' : Nat} (ho : outer ≤ outer')
    (hi : inner ≤ inner') :
    (spending outer inner).toTask.Raises (spending outer' inner').toTask :=
  .controller ho (.cons (.controller hi (.cons (.pass _) .nil)) .nil)

/-- A supply of four lasts for two passes of each loop, and higher ceilings change nothing.  A lower
one cuts the run off. -/
theorem execute_raised_spending :
    let run := fun c : Controller (StateM Nat) Nat =>
      (((({} : Runner (StateM Nat) Nat).execute c 5).run.run RunState.empty).run .empty).run 4
    let logged := fun c : Controller (StateM Nat) Nat =>
      ((((({} : Runner (Logged Nat (StateM Nat)) Nat).execute c.logged 5).run.run
        RunState.empty).run .empty).run []).run 4
    (spending 2 2).toTask.Raises (spending 3 7).toTask ∧
      Finished (run (spending 2 2)).run.1 ∧ (run (spending 2 2)).run.1.1.1 = .ok 9 ∧
      run (spending 3 7) = run (spending 2 2) ∧
      Finished (logged (spending 2 2)).run.1.1 ∧
      logged (spending 3 7) = logged (spending 2 2) ∧
      (logged (spending 3 7)).run.1.2.filterMap Event.pass? = [⟨2⟩, ⟨2⟩, ⟨2⟩, ⟨2⟩] ∧
      (run (spending 1 2)).run.1.1.1 = .error (.maxIterationReached 1) := by
  intro run logged
  have raises := raises_spending (by decide : 2 ≤ 3) (by decide : 2 ≤ 7)
  obtain ⟨same, sameLog⟩ := execute_raised raises 5 RunState.empty .empty 4
  have ends : (run (spending 2 2)).run.1.1.1 = .ok 9 := by
    dsimp only [run]
    rw [Runner.execute_eq_interpret]
    rfl
  have endsLogged : (logged (spending 2 2)).run.1.1.1.1 = .ok 9 ∧
      (logged (spending 2 2)).run.1.2.filterMap Event.pass? = [⟨2⟩, ⟨2⟩, ⟨2⟩, ⟨2⟩] := by
    dsimp only [logged]
    rw [Runner.execute_eq_interpret]
    exact ⟨rfl, rfl⟩
  have done : Finished (run (spending 2 2)).run.1 := fun n cut => nomatch ends.symm.trans cut
  have doneLogged : Finished (logged (spending 2 2)).run.1.1 :=
    fun n cut => nomatch endsLogged.1.symm.trans cut
  have equal : logged (spending 3 7) = logged (spending 2 2) := sameLog {} doneLogged
  refine ⟨raises, done, ends, same {} done, doneLogged, equal, equal ▸ endsLogged.2, ?_⟩
  dsimp only [run]
  rw [Runner.execute_eq_interpret]
  rfl

end QuantumControl.Pipeline
