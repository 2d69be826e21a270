import QuantumControl.Proofs.Pipeline.Stream

/-!
# Trees evaluated along their structure

A runner pulls tasks out of streams, one at a time and with the properties of
the moment.  `Task.interpret` says what a tree means without streams: it
recurses over the tree, given what a pass and a predicate mean.  The main
statement, `Runner.execute_eq_interpret`, holds for every runner, skipping or
not: driving the streams of a tree is interpreting the tree with the runner's
own way to run a pass.

The proof goes up the tree.  A runner agrees with the interpretation on the
stream of a list of tasks (`drive_sequence`) and on the stream of a loop from
any position within any pass (`drive_loop`), provided it agrees on each task;
so it agrees on each controller, and by induction on each task.
-/

namespace QuantumControl.Pipeline

variable {m : Type → Type} {P : Type}

/-- Induction over the nodes of a tree. -/
theorem Task.induction {motive : Task m P → Prop} (pass : ∀ p, motive (.pass p))
    (controller : ∀ id flow options tasks, (∀ t ∈ tasks, motive t) →
      motive (.controller id flow options tasks)) : ∀ t, motive t
  | .pass p => pass p
  | .controller id flow options tasks =>
      controller id flow options tasks fun t _ => Task.induction pass controller t
termination_by t => sizeOf t
decreasing_by
  next h =>
    have := List.sizeOf_lt_of_mem h
    simp only [Task.controller.sizeOf_spec]
    omega

/-! ## Interpretation -/

section Interpretation

variable {M : Type → Type} [Monad M] [MonadExceptOf PassError M]

/-- Make passes over a body as long as another one is asked for, at most `left`
of them. -/
def passes (ceiling : Nat) (again : M Bool) (body : P → M P) : Nat → P → M P
  | 0, _ => throw (.maxIterationReached ceiling)
  | left + 1, program => do
      let program ← body program
      if ← again then passes ceiling again body left program else return program

/-- Run a body as a flow says: once; once or not at all, as the condition holds
before it; or again and again, as long as the condition holds after it. -/
def Flow.interpret (ask : Predicate m → M Bool) (ceiling : Nat) (body : P → M P) (program : P) :
    Flow m → M P
  | .linear => body program
  | .condition holds => do if ← ask holds then body program else return program
  | .doWhile repeats => passes ceiling (ask repeats) body ceiling program

mutual

/-- The meaning of a task, given the meaning of passes and predicates. -/
def Task.interpret (leaf : Pass m P → P → M P) (ask : Predicate m → M Bool) : Task m P → P → M P
  | .pass p, program => leaf p program
  | .controller _ flow options tasks, program =>
      flow.interpret ask options.maxIteration (Task.interpretAll leaf ask tasks) program

/-- The meaning of tasks from left to right. -/
def Task.interpretAll (leaf : Pass m P → P → M P) (ask : Predicate m → M Bool) :
    List (Task m P) → P → M P
  | [], program => return program
  | t :: ts, program => do
      let program ← Task.interpret leaf ask t program
      Task.interpretAll leaf ask ts program

end

end Interpretation

/-! ## Trees over other effects -/

section Translation

variable {n : Type → Type} (onPass : Pass m P → Pass n P) (onPredicate : Predicate m → Predicate n)

def Flow.translate : Flow m → Flow n
  | .linear => .linear
  | .condition holds => .condition (onPredicate holds)
  | .doWhile repeats => .doWhile (onPredicate repeats)

mutual

/-- The tree with other passes and predicates in the places of its own. -/
def Task.translate : Task m P → Task n P
  | .pass p => .pass (onPass p)
  | .controller id flow options tasks =>
      .controller id (flow.translate onPredicate) options (Task.translateAll tasks)

def Task.translateAll : List (Task m P) → List (Task n P)
  | [] => []
  | t :: ts => t.translate :: Task.translateAll ts

end

def Controller.translate (c : Controller m P) : Controller n P :=
  ⟨c.id, c.flow.translate onPredicate, c.options, Task.translateAll onPass onPredicate c.tasks⟩

variable {M : Type → Type} [Monad M] [MonadExceptOf PassError M]

/-- The meaning of a translated tree, in terms of the tree. -/
theorem Task.interpret_translate (leaf : Pass n P → P → M P) (ask : Predicate n → M Bool)
    (t : Task m P) (program : P) :
    (t.translate onPass onPredicate).interpret leaf ask program =
      t.interpret (fun p => leaf (onPass p)) (fun f => ask (onPredicate f)) program := by
  induction t using Task.induction generalizing program with
  | pass p => rfl
  | controller id flow options tasks ih =>
      have all : interpretAll leaf ask (translateAll onPass onPredicate tasks) =
          interpretAll (fun p => leaf (onPass p)) (fun f => ask (onPredicate f)) tasks := by
        clear program
        induction tasks with
        | nil => rfl
        | cons t ts ihs =>
            funext program
            rw [translateAll, interpretAll, interpretAll, ih t List.mem_cons_self program,
              ihs fun u hu => ih u (List.mem_cons_of_mem t hu)]
      cases flow <;> simp only [translate, interpret, Flow.translate, Flow.interpret, all]

end Translation

namespace Runner

variable [Monad m] (r : Runner m P)

/-! ## Driving a stream by its answers -/

/-- Run a task that a stream yielded. -/
def runTask : Task m P → P → RunM m P
  | .pass p, program => r.runPass p program
  | .controller id flow options tasks, program => r.execute ⟨id, flow, options, tasks⟩ program

/-- Go on after an answer. -/
def proceed (program : P) : TaskStream.Answer m P → RunM m P
  | (.ok none, _) => return program
  | (.error error, _) => throw error
  | (.ok (some t), rest) => do
      let program ← r.runTask t program
      r.drive rest program

/-- The interpretation of tasks with the runner's own way to run a pass. -/
abbrev interpretAll (ts : List (Task m P)) : P → RunM m P :=
  Task.interpretAll r.runPass RunM.withProperties ts

variable [LawfulMonad m]

theorem drive_eq (s : TaskStream m P) (program : P) :
    r.drive s program = RunM.withProperties s.answer >>= r.proceed program := by
  have answers : RunM.withProperties s.answer =
      TaskStream.Pull.answer <$> RunM.withProperties (s.pull ·) := RunM.withProperties_map _ _
  rw [drive, answers, bind_map_left]
  apply bind_congr
  intro pull
  cases pull with
  | task t rest smaller less =>
      cases t with
      | pass p => rfl
      | controller id flow options tasks => exact (bind_assoc _ _ _).symm
  | done => rfl
  | fail error => rfl

/-- A stream whose answer does not depend on the properties. -/
theorem drive_of_answer {s : TaskStream m P} {a : TaskStream.Answer m P}
    (h : ∀ p, s.answer p = pure a) (program : P) : r.drive s program = r.proceed program a := by
  rw [drive_eq, funext h, RunM.withProperties_pure, pure_bind]

/-! ## Streams of tasks the runner agrees on -/

/-- The runner runs a task to its interpretation. -/
def Agrees (t : Task m P) : Prop :=
  ∀ program, r.runTask t program = t.interpret r.runPass RunM.withProperties program

theorem drive_sequence {ts : List (Task m P)} (agree : ∀ t ∈ ts, r.Agrees t) (program : P) :
    r.drive (.sequence ts) program = r.interpretAll ts program := by
  induction ts generalizing program with
  | nil =>
      rw [r.drive_of_answer TaskStream.answer_sequence_nil]
      rfl
  | cons t ts ih =>
      rw [r.drive_of_answer (TaskStream.answer_sequence_cons t ts), proceed,
        agree t List.mem_cons_self program]
      apply bind_congr
      intro program
      exact ih (fun u hu => agree u (List.mem_cons_of_mem t hu)) program

section Loop

variable {tasks : List (Task m P)} (repeats : Predicate m) (ceiling : Nat)

/-- Past the last task of a pass a predicate decides, and another pass begins like the first. -/
theorem drive_loop_of_past {position : Nat} (past : tasks[position]? = none) (left : Nat)
    (program : P) :
    r.drive (.loop tasks repeats ceiling left position) program = (do
      if ← RunM.withProperties repeats then
        match left with
        | 0 => throw (.maxIterationReached ceiling)
        | k + 1 => r.drive (.loop tasks repeats ceiling k 0) program
      else return program) := by
  rw [drive_eq, funext (TaskStream.answer_loop_of_past tasks repeats ceiling past left)]
  cases left with
  | zero =>
      simp only [TaskStream.decision, RunM.withProperties_bind, bind_assoc]
      apply bind_congr
      intro again
      cases again <;> simp only [if_true, Bool.false_eq_true, if_false,
        RunM.withProperties_pure, pure_bind] <;> rfl
  | succ k =>
      simp only [TaskStream.decision, RunM.withProperties_bind, bind_assoc]
      apply bind_congr
      intro again
      cases again with
      | false =>
          simp only [Bool.false_eq_true, if_false, RunM.withProperties_pure, pure_bind]
          rfl
      | true =>
          simp only [if_true]
          exact (r.drive_eq _ program).symm

/-- What remains of a loop at the end of a pass that `left` more passes may
follow. -/
def endOfPass (tasks : List (Task m P)) (repeats : Predicate m) (ceiling left : Nat)
    (program : P) : RunM m P := do
  if ← RunM.withProperties repeats then
    passes ceiling (RunM.withProperties repeats) (r.interpretAll tasks) left program
  else return program

/-- The end of a pass, if the passes that may follow are interpreted rightly. -/
theorem drive_loop_past {left position : Nat} (past : tasks[position]? = none)
    (next : ∀ k < left, ∀ program, r.drive (.loop tasks repeats ceiling k 0) program =
      r.interpretAll tasks program >>= r.endOfPass tasks repeats ceiling k) (program : P) :
    r.drive (.loop tasks repeats ceiling left position) program =
      r.endOfPass tasks repeats ceiling left program := by
  rw [r.drive_loop_of_past repeats ceiling past]
  apply bind_congr
  intro again
  cases left with
  | zero => rfl
  | succ k =>
      cases again with
      | false => rfl
      | true => exact next k (Nat.lt_succ_self k) program

/-- A loop from any position: the rest of the pass, then its end.  The outer
induction is on the passes that may follow, the inner one on the rest of the
pass. -/
theorem drive_loop (agree : ∀ t ∈ tasks, r.Agrees t) (left position : Nat) (program : P) :
    r.drive (.loop tasks repeats ceiling left position) program =
      r.interpretAll (tasks.drop position) program >>=
        r.endOfPass tasks repeats ceiling left := by
  induction left using Nat.strongRecOn generalizing position program with
  | ind left ih =>
      induction h : tasks.drop position generalizing position program with
      | nil =>
          have past : tasks[position]? = none :=
            List.getElem?_eq_none_iff.2 (List.drop_eq_nil_iff.1 h)
          rw [r.drive_loop_past repeats ceiling past fun k hk program => ih k hk 0 program]
          exact (pure_bind program _).symm
      | cons t ts ih' =>
          have here : tasks[position]? = some t := by rw [← List.head?_drop, h]; rfl
          have rest : tasks.drop (position + 1) = ts := by rw [← List.tail_drop, h]; rfl
          rw [r.drive_of_answer
              (TaskStream.answer_loop_of_getElem? tasks repeats ceiling here left),
            proceed, agree t (List.mem_of_getElem? here) program, interpretAll, Task.interpretAll,
            bind_assoc]
          apply bind_congr
          intro program
          exact ih' (position + 1) program rest

end Loop

/-! ## Controllers -/

theorem execute_of_enters {c : Controller m P} (entered : Bool)
    (h : ∀ p, c.enters p = pure entered) (program : P) :
    r.execute c program = r.drive (c.stream entered) program := by
  rw [execute, funext h, RunM.withProperties_pure, pure_bind]

theorem execute_of_agrees (c : Controller m P) (agree : ∀ t ∈ c.tasks, r.Agrees t) (program : P) :
    r.execute c program = c.flow.interpret RunM.withProperties c.options.maxIteration
      (r.interpretAll c.tasks) program := by
  obtain ⟨id, flow, ⟨ceiling⟩, tasks⟩ := c
  cases flow with
  | linear =>
      rw [r.execute_of_enters true fun _ => rfl]
      exact r.drive_sequence agree program
  | condition holds =>
      apply bind_congr
      intro entered
      cases entered with
      | false => exact r.drive_sequence (fun t ht => absurd ht List.not_mem_nil) program
      | true => exact r.drive_sequence agree program
  | doWhile repeats =>
      rw [r.execute_of_enters true fun _ => rfl]
      cases ceiling with
      | zero => exact r.drive_of_answer (TaskStream.answer_overrun 0) program
      | succ left => exact r.drive_loop repeats (left + 1) agree left 0 program

theorem agrees (t : Task m P) : r.Agrees t := by
  induction t using Task.induction with
  | pass p => exact fun _ => rfl
  | controller id flow options tasks ih =>
      exact r.execute_of_agrees ⟨id, flow, options, tasks⟩ ih

/-- Running a tree is interpreting it. -/
theorem execute_eq_interpret (root : Controller m P) (program : P) :
    r.execute root program = root.toTask.interpret r.runPass RunM.withProperties program :=
  r.agrees root.toTask program

end Runner

end QuantumControl.Pipeline
