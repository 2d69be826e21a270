import QuantumControl.Proofs.Pipeline.Machine
import QuantumControl.Proofs.Pipeline.Trace

/-!
# What a run may cost

The tree of a pipeline bounds its runs: a loop runs its tasks at most as often as its
ceiling says, and all else at most once.  `Task.bound` is the most passes that this
makes.  The bound is shown for every count that adds up along a run (`Additive`), and
there are two: the passes that a runner counts when they have succeeded, and those that
a log notes when they start, so that a failing pass is not left out.
-/

namespace QuantumControl.Pipeline

variable {m : Type → Type} {P : Type}

mutual

/-- The most passes that a task may run. -/
def Task.bound : Task m P → Nat
  | .pass _ => 1
  | .controller _ flow options tasks =>
      flow.mostPasses options.maxIteration * Task.boundAll tasks

def Task.boundAll : List (Task m P) → Nat
  | [] => 0
  | t :: ts => t.bound + Task.boundAll ts

end

/-! ## Counts that add up -/

/-- A bound on computations that adds up along their steps. -/
structure Additive (M : Type → Type) [Monad M] [MonadExceptOf PassError M]
    (within : {α : Type} → Nat → M α → Prop) : Prop where
  pure {α : Type} (a : α) : within 0 (pure a : M α)
  throw {α : Type} (error : PassError) : within 0 (throw error : M α)
  bind {α β : Type} {a b : Nat} {x : M α} {f : α → M β} (h : within a x)
    (next : ∀ v, within b (f v)) : within (a + b) (x >>= f)
  mono {α : Type} {a b : Nat} {x : M α} (h : within a x) (le : a ≤ b) : within b x

section Bounded

variable {M : Type → Type} [Monad M] [MonadExceptOf PassError M]
  {within : {α : Type} → Nat → M α → Prop} (additive : Additive M within)

include additive

theorem passes_within (ceiling : Nat) {again : M Bool} (h : within 0 again) {n : Nat}
    {body : P → M P} (bodies : ∀ program, within n (body program)) (left : Nat) (program : P) :
    within (left * n) (passes ceiling again body left program) := by
  induction left generalizing program with
  | zero =>
      rw [Nat.zero_mul]
      exact additive.throw _
  | succ left ih =>
      have sum : (left + 1) * n = n + (0 + left * n) := by
        rw [Nat.succ_mul, Nat.zero_add, Nat.add_comm]
      rw [sum]
      refine additive.bind (bodies program) fun program => additive.bind h fun again => ?_
      cases again with
      | false => exact additive.mono (additive.pure program) (Nat.zero_le _)
      | true => exact ih program

variable {leaf : Pass m P → P → M P} (leaves : ∀ p program, within 1 (leaf p program))
  {ask : Predicate m → M Bool} (asks : ∀ f, within 0 (ask f))

include asks in
theorem Flow.interpret_within (flow : Flow m) (ceiling : Nat) {n : Nat} {body : P → M P}
    (bodies : ∀ program, within n (body program)) (program : P) :
    within (flow.mostPasses ceiling * n) (flow.interpret ask ceiling body program) := by
  cases flow with
  | linear =>
      rw [mostPasses, Nat.one_mul]
      exact bodies program
  | condition holds =>
      rw [mostPasses, Nat.one_mul, ← Nat.zero_add n]
      refine additive.bind (asks holds) fun entered => ?_
      cases entered with
      | false => exact additive.mono (additive.pure program) (Nat.zero_le n)
      | true => exact bodies program
  | doWhile repeats => exact passes_within additive ceiling (asks repeats) bodies ceiling program

theorem Task.interpretAll_within {ts : List (Task m P)}
    (tasks : ∀ t ∈ ts, ∀ program, within t.bound (t.interpret leaf ask program)) (program : P) :
    within (boundAll ts) (interpretAll leaf ask ts program) := by
  induction ts generalizing program with
  | nil => exact additive.pure program
  | cons t ts ih =>
      refine additive.bind (tasks t List.mem_cons_self program) fun program => ?_
      exact ih (fun u hu => tasks u (List.mem_cons_of_mem t hu)) program

include leaves asks in
/-- A tree keeps to its bound if each pass counts once and predicates do not count. -/
theorem Task.interpret_within (t : Task m P) (program : P) :
    within t.bound (t.interpret leaf ask program) := by
  induction t using Task.induction generalizing program with
  | pass p => exact leaves p program
  | controller id flow options tasks ih =>
      exact Flow.interpret_within additive asks flow options.maxIteration
        (Task.interpretAll_within additive ih) program

end Bounded

section RunPass

variable [Monad m] {within : {α : Type} → Nat → RunM m α → Prop}
  (additive : Additive (RunM m) within) (remembered : within 0 (getThe RunState))
  {r : Runner m P} {pass : Pass m P}

include additive remembered

theorem Runner.observe_within
    (shown : ∀ f ∈ r.observer, ∀ observation : PropertySet → Observation m P,
      within 0 (RunM.withProperties fun p => f (observation p))) (program : P) :
    within 0 (r.observe pass program) := by
  rw [observe]
  cases h : r.observer with
  | none => exact additive.pure ()
  | some f => exact additive.bind remembered fun state => shown f h _

/-- A pass that is not skipped runs, is recorded, and is shown to the observer. -/
theorem Runner.runPass_within {program : P} {a b : Nat}
    (runs : within a (RunM.ofPass (pass.run program)))
    (recorded : within b (modifyThe RunState (·.record pass.id pass.kind)))
    (observed : ∀ program, within 0 (r.observe pass program)) :
    within (a + b) (r.runPass pass program) := by
  rw [runPass, ← Nat.zero_add (a + b)]
  refine additive.bind remembered fun state => ?_
  split
  · exact additive.mono (additive.pure program) (Nat.zero_le _)
  · exact additive.bind runs fun program => additive.bind recorded fun _ =>
      additive.bind (observed program) fun _ => additive.pure program

end RunPass

/-! ## The passes that a runner counts -/

namespace RunM

variable [Monad m] {α : Type}

/-- At most `n` passes are counted, whatever was counted before. -/
def CountsAtMost (n : Nat) (x : RunM m α) : Prop :=
  ∀ state p, Surely (fun run => run.1.2.count ≤ state.count + n) ((x.run.run state).run p)

variable [LawfulMonad m]

theorem additive_countsAtMost : Additive (RunM m) CountsAtMost where
  pure a state p := surely_pure (Nat.le_refl _)
  throw error state p := surely_pure (Nat.le_refl _)
  bind {α β a b x f} h next state p := by
    rw [run_bind]
    refine (h state p).bind fun ⟨⟨result, state'⟩, p'⟩ first => ?_
    cases result with
    | error error => exact surely_pure (by dsimp only at first ⊢; omega)
    | ok v => exact (next v state' p').mono fun run second => by dsimp only at first second ⊢; omega
  mono h le state p := (h state p).mono fun run first => by omega

theorem countsAtMost_getThe : CountsAtMost 0 (getThe RunState : RunM m RunState) := by
  intro state p
  rw [run_getThe]
  exact surely_pure (Nat.le_refl _)

theorem countsAtMost_withProperties (f : PropertySet → m α) :
    CountsAtMost 0 (withProperties f) := by
  intro state p
  rw [run_withProperties]
  exact (surely_true _).bind fun _ _ => surely_pure (Nat.le_refl _)

theorem countsAtMost_ofPass (x : PassM m α) : CountsAtMost 0 (ofPass x) := by
  intro state p
  rw [run_ofPass]
  exact (surely_true _).bind fun _ _ => surely_pure (Nat.le_refl _)

theorem countsAtMost_record (id : TaskId) (kind : PassKind) :
    CountsAtMost 1 (modifyThe RunState (·.record id kind) : RunM m Unit) := by
  intro state p
  rw [run_modifyThe]
  exact surely_pure (Nat.le_refl _)

theorem countsAtMost_runPass (r : Runner m P) (pass : Pass m P) (program : P) :
    CountsAtMost 1 (r.runPass pass program) :=
  Runner.runPass_within additive_countsAtMost countsAtMost_getThe
    (countsAtMost_ofPass (pass.run program)) (countsAtMost_record pass.id pass.kind)
    (Runner.observe_within additive_countsAtMost countsAtMost_getThe
      fun _ _ _ => countsAtMost_withProperties _)

end RunM

/-! ## The passes that a log notes -/

/-- How many passes started. -/
def started (log : List (Event P)) : Nat := (log.filterMap Event.pass?).length

theorem started_ran (log : List (Event P)) (pass : TaskId) (program : P) (p : PropertySet) :
    started (log ++ [.ran pass program p]) = started log + 1 := by
  simp [started, Event.pass?]

theorem started_asked (log : List (Event P)) (p : PropertySet) (answer : Bool) :
    started (log ++ [.asked p answer]) = started log := by
  simp [started, Event.pass?]

theorem run_note [Monad m] (e : Event P) (log : List (Event P)) :
    (note e : Logged P m Unit).run log = pure ((), log ++ [e]) := rfl

/-- The observer, if there is one, leaves the log to the passes and the predicates. -/
def Runner.LeavesLog [Monad m] (r : Runner (Logged P m) P) : Prop :=
  ∀ f ∈ r.observer, ∀ o, ∃ shown : m Unit, f o = StateT.lift shown

/-- To keep a log is to put other passes and predicates in the places of those of a tree. -/
theorem Task.logged_eq_translate [Monad m] (t : Task m P) :
    t.logged = t.translate Pass.logged Predicate.logged := by
  induction t using Task.induction with
  | pass p => rfl
  | controller id flow options tasks ih =>
      have all : loggedAll tasks = translateAll Pass.logged Predicate.logged tasks := by
        induction tasks with
        | nil => rfl
        | cons t ts ihs =>
            rw [loggedAll, translateAll, ih t List.mem_cons_self,
              ihs fun u hu => ih u (List.mem_cons_of_mem t hu)]
      cases flow <;> rw [logged, translate, all] <;> rfl

/-- The meaning of a tree that keeps a log, in terms of the tree. -/
theorem Task.interpret_logged [Monad m] {M : Type → Type} [Monad M] [MonadExceptOf PassError M]
    (leaf : Pass (Logged P m) P → P → M P) (ask : Predicate (Logged P m) → M Bool) (t : Task m P)
    (program : P) :
    t.logged.interpret leaf ask program =
      t.interpret (fun pass => leaf pass.logged) (fun f => ask (Predicate.logged f)) program := by
  rw [logged_eq_translate, interpret_translate]

namespace RunM

variable [Monad m] {α : Type}

/-- At most `n` passes start, whatever started before. -/
def StartsAtMost (n : Nat) (x : RunM (Logged P m) α) : Prop :=
  ∀ state p log, Surely (fun run => started run.2 ≤ started log + n)
    (((x.run.run state).run p).run log)

variable [LawfulMonad m]

theorem additive_startsAtMost : Additive (RunM (Logged P m)) (StartsAtMost (P := P)) where
  pure a state p log := surely_pure (Nat.le_refl _)
  throw error state p log := surely_pure (Nat.le_refl _)
  bind {α β a b x f} h next state p log := by
    rw [run_bind, StateT.run_bind]
    refine (h state p log).bind fun ⟨⟨⟨result, state'⟩, p'⟩, log'⟩ first => ?_
    cases result with
    | error error => exact surely_pure (by dsimp only at first ⊢; omega)
    | ok v =>
        exact (next v state' p' log').mono fun run second => by dsimp only at first second ⊢; omega
  mono h le state p log := (h state p log).mono fun run first => by omega

theorem startsAtMost_getThe : StartsAtMost 0 (getThe RunState : RunM (Logged P m) RunState) := by
  intro state p log
  rw [run_getThe]
  exact surely_pure (Nat.le_refl _)

theorem startsAtMost_record (id : TaskId) (kind : PassKind) :
    StartsAtMost 0 (modifyThe RunState (·.record id kind) : RunM (Logged P m) Unit) := by
  intro state p log
  rw [run_modifyThe]
  exact surely_pure (Nat.le_refl _)

theorem startsAtMost_withProperties {f : PropertySet → Logged P m α}
    (quiet : ∀ p, ∃ x : m α, f p = StateT.lift x) : StartsAtMost 0 (withProperties f) := by
  intro state p log
  obtain ⟨x, h⟩ := quiet p
  rw [run_withProperties, h, StateT.run_bind, StateT.run_lift, bind_assoc]
  refine (surely_true x).bind fun a _ => ?_
  rw [pure_bind]
  exact surely_pure (Nat.le_refl _)

theorem startsAtMost_asked (holds : Predicate m) :
    StartsAtMost 0 (withProperties (Predicate.logged (P := P) holds)) := by
  intro state p log
  rw [run_withProperties, Predicate.logged]
  simp only [StateT.run_bind, StateT.run_lift, bind_assoc, pure_bind]
  refine (surely_true (holds p)).bind fun answer _ => ?_
  rw [run_note, pure_bind]
  exact surely_pure (Nat.le_of_eq (started_asked log p answer))

theorem startsAtMost_ofPass (pass : Pass m P) (program : P) :
    StartsAtMost 1 (ofPass (pass.logged.run program)) := by
  intro state p log
  rw [run_ofPass]
  show Surely _ (StateT.run ((note _ >>= fun _ => StateT.lift _) >>= _) log)
  simp only [StateT.run_bind, StateT.run_lift, bind_assoc, pure_bind]
  rw [run_note, pure_bind]
  refine (surely_true _).bind fun r _ => surely_pure ?_
  exact Nat.le_of_eq (started_ran log pass.id program p)

theorem startsAtMost_runPass {r : Runner (Logged P m) P} (leaves : r.LeavesLog) (pass : Pass m P)
    (program : P) : StartsAtMost 1 (r.runPass pass.logged program) :=
  Runner.runPass_within additive_startsAtMost startsAtMost_getThe
    (startsAtMost_ofPass pass program) (startsAtMost_record pass.id pass.kind)
    (Runner.observe_within additive_startsAtMost startsAtMost_getThe
      fun f hf _ => startsAtMost_withProperties fun _ => leaves f hf _)

end RunM

/-! ## The budget of a run -/

theorem countsAtMost_execute [Monad m] [LawfulMonad m] (r : Runner m P) (root : Controller m P)
    (program : P) : RunM.CountsAtMost root.toTask.bound (r.execute root program) := by
  rw [Runner.execute_eq_interpret]
  exact Task.interpret_within RunM.additive_countsAtMost (RunM.countsAtMost_runPass r)
    RunM.countsAtMost_withProperties root.toTask program

theorem startsAtMost_execute [Monad m] [LawfulMonad m] {r : Runner (Logged P m) P}
    (leaves : r.LeavesLog) (root : Controller m P) (program : P) :
    RunM.StartsAtMost root.toTask.bound (r.execute root.logged program) := by
  rw [Runner.execute_eq_interpret]
  have same := Task.interpret_logged r.runPass RunM.withProperties root.toTask program
  rw [show root.logged.toTask = root.toTask.logged from rfl, same]
  exact Task.interpret_within RunM.additive_startsAtMost (RunM.startsAtMost_runPass leaves)
    RunM.startsAtMost_asked root.toTask program

theorem Task.rounds_loop_nil (id : TaskId) (repeats : Predicate m) (n : Nat) :
    (Controller.toTask (P := P) ⟨id, .doWhile repeats, { maxIteration := n }, []⟩).rounds =
      max n 1 := Nat.mul_one _

/-- A run is over within the rounds that its tree allows for, skipping or not, whatever passes,
predicates and the observer do.  The passes that it counts, and those that it starts, keep to the
bound of the tree.  A loop over no tasks is over within as many rounds as its ceiling says.  The
word that counts the passes of a loop never exceeds the ceiling, and has room for one more pass as
long as the loop is not over. -/
theorem execute_within_budget [Monad m] [LawfulMonad m] {root : Controller m P}
    (words : root.toTask.Words) (program : P) :
    (∀ (r : Runner m P) (fuel : Nat), root.toTask.rounds ≤ fuel →
      r.executeFor fuel root program = some <$> r.execute root program) ∧
    (∀ (r : Runner m P) state properties,
      Surely (fun run => run.1.2.count ≤ state.count + root.toTask.bound)
        (((r.execute root program).run.run state).run properties)) ∧
    (∀ r : Runner (Logged P m) P, r.LeavesLog → ∀ state properties,
      Surely (fun run => started run.2 ≤ root.toTask.bound)
        ((r.outcome root.logged program state properties).run [])) ∧
    (∀ (r : Runner m P) (id : TaskId) (repeats : Predicate m) (n fuel : Nat), n < UInt64.size →
      max n 1 ≤ fuel →
        let idle : Controller m P := ⟨id, .doWhile repeats, { maxIteration := n }, []⟩
        r.executeFor fuel idle program = some <$> r.execute idle program) ∧
    ∀ (tasks : List (Task m P)) (ceiling : UInt64) (c : Counter), c.Reachable tasks ceiling →
      c.iteration ≤ ceiling ∧
        (c.finished = false → ceiling ≠ 0 →
          (c.iteration + 1).toNat = c.iteration.toNat + 1) := by
  refine ⟨fun r fuel enough => Runner.executeFor_eq words enough program,
    fun r => countsAtMost_execute r root program, fun r leaves state p => ?_,
    fun r id repeats n fuel word enough => ?_, fun tasks ceiling c reachable => ?_⟩
  · have begun := startsAtMost_execute leaves root program state p []
    rw [Runner.outcome, StateT.run_bind]
    refine begun.bind fun run within => surely_pure ?_
    exact Nat.le_trans within (Nat.le_of_eq (Nat.zero_add root.toTask.bound))
  · refine Runner.executeFor_eq (Task.words_controller.2 ⟨word, fun t ht => ?_⟩) ?_ program
    · cases ht
    · rwa [Task.rounds_loop_nil]
  · have sound := reachable.sound
    exact ⟨sound.le, fun unfinished pos => Counter.toNat_succ (sound.lt unfinished pos)⟩

/-- A loop over nothing. -/
def idleLoop : Controller Id Nat := ⟨⟨2⟩, .doWhile fun _ => true, { maxIteration := 3 }, []⟩

/-- A loop that may make as many passes as a word can count, with a loop over nothing in it. -/
def idling : Controller Id Nat where
  id := ⟨0⟩
  flow := .doWhile fun _ => true
  options := { maxIteration := UInt64.size - 1 }
  tasks := [.pass (.transformation ⟨1⟩ "count" fun n => return n + 1), idleLoop.toTask]

/-- The loop over nothing gives up after three rounds, and with it the run.  With the largest
ceiling it would go on, and there is room to count. -/
theorem execute_within_budget_idling :
    idling.toTask.Words ∧ ({} : Runner (Logged Nat Id) Nat).LeavesLog ∧
      idling.toTask.bound = UInt64.size - 1 ∧
      (∀ skip, ({ legacySkip := skip } : Runner Id Nat).executeFor idling.toTask.rounds idling 5 =
        some <$> ({ legacySkip := skip } : Runner Id Nat).execute idling 5) ∧
      (let run := ((({} : Runner Id Nat).execute idling 5).run.run RunState.empty).run
        PropertySet.empty
      run.1.1 = .error (.maxIterationReached 3) ∧ run.1.2.count = 1 ∧
        run.1.2.count ≤ 0 + idling.toTask.bound) ∧
      started ((({} : Runner (Logged Nat Id) Nat).outcome idling.logged 5 RunState.empty
        PropertySet.empty).run []).2 ≤ idling.toTask.bound ∧
      ({} : Runner Id Nat).executeFor 3 idleLoop 5 =
        some <$> ({} : Runner Id Nat).execute idleLoop 5 ∧
      (⟨2, 0, false⟩ : Counter).Reachable idleLoop.tasks 18446744073709551615 ∧
      ((2 : UInt64) + 1).toNat = (2 : UInt64).toNat + 1 := by
  have words : idling.toTask.Words := by decide +kernel
  have leaves : ({} : Runner (Logged Nat Id) Nat).LeavesLog := fun f hf => absurd hf (by simp)
  have reachable : (⟨2, 0, false⟩ : Counter).Reachable idleLoop.tasks 18446744073709551615 :=
    .next (.next .fresh true) true
  obtain ⟨ends, counted, begun, spins, word⟩ := execute_within_budget words 5
  have counted := surely_id.1 (counted {} RunState.empty PropertySet.empty)
  have begun := surely_id.1 (begun {} leaves RunState.empty PropertySet.empty)
  obtain ⟨-, room⟩ := word idleLoop.tasks 18446744073709551615 _ reachable
  refine ⟨words, leaves, rfl, fun skip => ends _ _ (Nat.le_refl _), ⟨?_, ?_, counted⟩, begun,
    spins _ _ _ 3 3 (by decide) (by decide), reachable, room rfl (by decide)⟩
  · rw [Runner.execute_eq_interpret]
    rfl
  · rw [Runner.execute_eq_interpret]
    rfl

end QuantumControl.Pipeline
