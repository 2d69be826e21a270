import QuantumControl.Proofs.Pipeline.Pairing
import QuantumControl.Proofs.Pipeline.Skipping

/-!
# Calls of one runner

A runner keeps its memory from one call to the next, while each call comes with a tree, a
program and properties of its own.  A memory shows in a call only through what may be
skipped: if none of the leaves is to be skipped at the start, the call is answered as a
fresh runner answers it (`Runner.outcome_of_skips_none`).  So calls do not depend on each
other as long as this holds before each of them (`Runner.Apart`), which it always does for
a runner that skips nothing.

Otherwise they may.  An analysis that is valid since an earlier call is skipped in a later
one, on whatever program, and its findings are missing from the properties of that call.
-/

namespace QuantumControl.Pipeline

variable {m : Type → Type} {P : Type}

/-- A tree to run, with the program and the properties to run it on. -/
structure Call (m : Type → Type) (P : Type) where
  root : Controller m P
  program : P
  properties : PropertySet

namespace RunState

theorem isValid_empty (id : TaskId) : empty.isValid id = false := rfl

theorem isValid_record_congr {s t : RunState} {other : TaskId}
    (same : s.isValid other = t.isValid other) (id : TaskId) (kind : PassKind) :
    (s.record id kind).isValid other = (t.record id kind).isValid other := by
  rw [Bool.eq_iff_iff, isValid_record, isValid_record, same]

end RunState

namespace Runner

section Skips

variable (r : Runner m P)

theorem skips_empty (pass : Pass m P) : r.skips RunState.empty pass = false := by
  rw [skips, RunState.isValid_empty, Bool.and_false]

theorem skips_of_full (full : r.legacySkip = false) (s : RunState) (pass : Pass m P) :
    r.skips s pass = false := by
  rw [skips, full, Bool.false_and, Bool.false_and]

/-- Memories that agree on a pass still do when both record another one. -/
theorem skips_record_congr {s t : RunState} {pass : Pass m P}
    (same : r.skips s pass = r.skips t pass) (id : TaskId) (kind : PassKind) :
    r.skips (s.record id kind) pass = r.skips (t.record id kind) pass := by
  rw [skips, skips] at same ⊢
  cases may : r.legacySkip && pass.kind = .analysis with
  | false => rfl
  | true =>
      rw [may, Bool.true_and, Bool.true_and] at same
      rw [RunState.isValid_record_congr same]

end Skips

variable [Monad m] (r : Runner m P)

/-! ## Calls -/

/-- Answer a call, from what is remembered of the calls before it. -/
def answer (c : Call m P) : StateT RunState m (Except PassError P × PropertySet) := fun state => do
  let ((result, state), properties) ←
    ((r.execute c.root c.program).run.run state).run c.properties
  return ((result, properties), state)

/-- Answer calls one after another. -/
def answers (calls : List (Call m P)) :
    StateT RunState m (List (Except PassError P × PropertySet)) := calls.mapM r.answer

/-- The answer to a call on a fresh runner. -/
def freshAnswer (c : Call m P) : m (Except PassError P × PropertySet) :=
  r.outcome c.root c.program RunState.empty c.properties

/-- Whenever one of the calls begins, none of its leaves is to be skipped. -/
def Apart : List (Call m P) → RunState → Prop
  | [], _ => True
  | c :: calls, s =>
      (∀ pass ∈ c.root.leaves, r.skips s pass = false) ∧
        Surely (fun run => Apart calls run.2) ((r.answer c).run s)

variable [LawfulMonad m]

theorem fst_answer (c : Call m P) (s : RunState) :
    Prod.fst <$> (r.answer c).run s = r.outcome c.root c.program s c.properties := by
  rw [StateT.run, answer, outcome, map_bind]
  exact bind_congr fun run => map_pure _ _

theorem fst_answers_cons (c : Call m P) (calls : List (Call m P)) (s : RunState) :
    Prod.fst <$> (r.answers (c :: calls)).run s = (r.answer c).run s >>= fun run =>
      (run.1 :: ·) <$> Prod.fst <$> (r.answers calls).run run.2 := by
  rw [answers, List.mapM_cons, StateT.run_bind, map_bind]
  refine bind_congr fun run => ?_
  rw [StateT.run_bind, map_bind, ← comp_map, map_eq_pure_bind]
  exact bind_congr fun rest => map_pure _ _

theorem apart_of_full (full : r.legacySkip = false) (calls : List (Call m P)) (s : RunState) :
    r.Apart calls s := by
  induction calls generalizing s with
  | nil => trivial
  | cons c calls ih =>
      refine ⟨fun pass _ => r.skips_of_full full s pass, ?_⟩
      exact (surely_true _).mono fun run _ => ih run.2

variable {r} (ignores : r.IgnoresCount)

include ignores

/-- If no leaf is to be skipped at the start, a memory does not show. -/
theorem outcome_of_skips_none {root : Controller m P} {s : RunState}
    (runs : ∀ pass ∈ root.leaves, r.skips s pass = false) (program : P) (p : PropertySet) :
    r.outcome root program s p = r.outcome root program RunState.empty p := by
  have tracks : RunM.Tracks (fun s t => ∀ pass ∈ root.leaves, r.skips s pass = r.skips t pass)
      (r.execute root program) (r.execute root program) := by
    refine tracks_execute ignores (fun pass mem s t same => same pass mem) ?_ program
    intro pass _ s t same other mem
    exact r.skips_record_congr (same other mem) pass.id pass.kind
  refine outcome_eq_of_tracks tracks (fun pass mem => ?_) p
  rw [runs pass mem, skips_empty]

/-- Calls that are apart are answered as on fresh runners.  The induction is on the calls, from
whatever memory the ones before have left. -/
theorem fst_answers_of_apart {calls : List (Call m P)} {s : RunState} (apart : r.Apart calls s) :
    Prod.fst <$> (r.answers calls).run s = calls.mapM r.freshAnswer := by
  induction calls generalizing s with
  | nil => exact map_pure _ _
  | cons c calls ih =>
      obtain ⟨runs, later⟩ := apart
      calc Prod.fst <$> (r.answers (c :: calls)).run s
          = (r.answer c).run s >>= fun run =>
              (run.1 :: ·) <$> Prod.fst <$> (r.answers calls).run run.2 :=
            r.fst_answers_cons c calls s
        _ = (r.answer c).run s >>= fun run => (run.1 :: ·) <$> calls.mapM r.freshAnswer :=
            later.bind_eq fun run apart => by rw [ih apart]
        _ = r.outcome c.root c.program s c.properties >>= fun a =>
              (a :: ·) <$> calls.mapM r.freshAnswer := by
            rw [← r.fst_answer, bind_map_left]
        _ = r.freshAnswer c >>= fun a => (a :: ·) <$> calls.mapM r.freshAnswer := by
            rw [outcome_of_skips_none ignores runs, freshAnswer]
        _ = (c :: calls).mapM r.freshAnswer := by
            simp only [List.mapM_cons, map_eq_pure_bind]

end Runner

/-! ## Trees with one leaf -/

/-- The tree with one leaf. -/
def Controller.single (pass : Pass m P) : Controller m P := ⟨⟨0⟩, .linear, {}, [.pass pass]⟩

/-- The one leaf is skipped, or it runs and is recorded if it succeeds. -/
theorem Runner.run_answer_single (r : Runner Id P) (pass : Pass Id P) (program : P)
    (p : PropertySet) (s : RunState) :
    ((r.answer ⟨.single pass, program, p⟩).run s).run =
      if r.skips s pass then ((.ok program, p), s)
      else match pass.outcome program p with
        | (.ok out, after) => ((.ok out, after), s.record pass.id pass.kind)
        | (.error error, after) => ((.error error, after), s) := by
  have alone : r.execute (.single pass) program = r.runPass pass program := by
    rw [execute_eq_interpret]
    exact bind_pure _
  have ended := r.ending_runPass pass program s p
  rw [RunM.ending] at ended
  rw [StateT.run, answer, alone, ended, skips]
  split
  · rfl
  · cases pass.outcome program p with
    | mk result after => cases result <;> rfl

theorem Runner.outcome_single (r : Runner Id P) (pass : Pass Id P) (program : P) (p : PropertySet)
    (s : RunState) :
    (r.outcome (.single pass) program s p).run =
      if r.skips s pass then (.ok program, p) else pass.outcome program p := by
  have answered := r.fst_answer ⟨.single pass, program, p⟩ s
  rw [← answered, Id.run_map, run_answer_single]
  split
  · rfl
  · cases pass.outcome program p with
    | mk result after => cases result <;> rfl

theorem Runner.freshAnswer_single (r : Runner Id P) (pass : Pass Id P) (program : P)
    (p : PropertySet) :
    (r.freshAnswer ⟨.single pass, program, p⟩).run = pass.outcome program p := by
  rw [freshAnswer, outcome_single, skips_empty, if_neg Bool.false_ne_true]

/-- An analysis that leaves a mark. -/
def mark (id : TaskId) : Pass Id P :=
  .analysis id "mark" fun _ => modifyThe PropertySet (·.set "marked" .null)

/-- In a pipeline whose passes have no effects of their own, a skipping runner answers as a fresh
one exactly as far as nothing is valid: an identity that is valid shows in some tree. -/
theorem Runner.isValid_eq_false_iff {r : Runner Id P} (skipping : r.legacySkip = true)
    (s : RunState) (id : TaskId) (program : P) :
    s.isValid id = false ↔ ∀ root : Controller Id P, (∀ a ∈ root.analyses, a.id = id) →
      ∀ p, r.outcome root program s p = r.outcome root program RunState.empty p := by
  constructor
  · intro outdated root only p
    refine outcome_of_skips_none (fun _ _ _ _ => rfl) (fun pass mem => ?_) program p
    rw [skips, skipping, Bool.true_and, Bool.and_eq_false_imp, decide_eq_true_iff]
    intro kind
    rw [only pass (Controller.mem_analyses.2 ⟨mem, kind⟩), outdated]
  · intro same
    -- an analysis with a valid identity leaves no mark, and on a fresh runner it does
    rw [← Bool.not_eq_true]
    intro valid
    have only : ∀ a ∈ (Controller.single (mark id : Pass Id P)).analyses, a.id = id :=
      List.forall_mem_singleton.2 rfl
    have skipped : r.skips s (mark id) = true := by
      rw [skips, skipping]
      exact valid
    have equal := same (.single (mark id)) only .empty
    have marked : (.ok program, PropertySet.empty) = (mark id).outcome program .empty := by
      have left := r.outcome_single (mark id) program .empty s
      rw [equal, r.outcome_single, skips_empty, skipped] at left
      exact left.symm
    have absent := congrArg (fun a => (a.2.get? "marked").isSome) marked
    cases absent

/-! ## Calls that are apart -/

/-- Calls of one runner that are apart, as all are if it skips nothing, are answered as each would
be on a fresh runner, provided that the observer does not look at the count.  For a runner that
skips there is no better condition on what it remembers: if an identity is valid, there is a tree
whose only analysis has this identity, and which is answered otherwise than on a fresh runner. -/
theorem answers_isolated [Monad m] [LawfulMonad m] {r : Runner m P} (ignores : r.IgnoresCount) :
    (∀ calls : List (Call m P), r.legacySkip = false → r.Apart calls RunState.empty) ∧
    (∀ calls : List (Call m P), r.Apart calls RunState.empty →
      Prod.fst <$> (r.answers calls).run RunState.empty = calls.mapM r.freshAnswer) ∧
    ∀ r : Runner Id P, r.legacySkip = true → ∀ (s : RunState) (id : TaskId) (program : P),
      s.isValid id = false ↔ ∀ root : Controller Id P, (∀ a ∈ root.analyses, a.id = id) →
        ∀ p, r.outcome root program s p = r.outcome root program RunState.empty p :=
  ⟨fun calls full => r.apart_of_full full calls _,
    fun _ apart => Runner.fst_answers_of_apart ignores apart,
    fun _ skipping s id program => Runner.isValid_eq_false_iff skipping s id program⟩

/-! ## Numbers that are measured -/

/-- A number is measured, another one grows, and a third one is measured. -/
def surveys : List (Call Id Nat) :=
  [⟨.single measure, 1, .empty⟩, ⟨.single (grow .transformation), 3, .empty⟩,
    ⟨.single measure, 5, .empty⟩]

/-- The transformation between them outdates what was found on the first number. -/
theorem answers_isolated_surveys :
    let r : Runner Id Nat := { legacySkip := true }
    let found := (RunState.empty.record ⟨1⟩ .analysis).record ⟨2⟩ .transformation
    r.IgnoresCount ∧ ({} : Runner Id Nat).Apart surveys RunState.empty ∧
      r.Apart surveys RunState.empty ∧ r.legacySkip = true ∧
      ((r.answers surveys).run RunState.empty).run.1 = (surveys.mapM r.freshAnswer).run ∧
      (surveys.mapM r.freshAnswer).run.map (fun answer => answer.2.get? "size") =
        [some (.int 1), none, some (.int 5)] ∧
      found.isValid ⟨1⟩ = false ∧ ∀ p, r.outcome (.single measure) 5 found p =
        r.outcome (.single measure) 5 RunState.empty p := by
  intro r found
  have ignores : r.IgnoresCount := fun f hf => absurd hf (by simp [r])
  have apart : r.Apart surveys RunState.empty := by
    refine ⟨List.forall_mem_singleton.2 rfl, surely_id.2 ?_⟩
    rw [r.run_answer_single]
    refine ⟨List.forall_mem_singleton.2 rfl, surely_id.2 ?_⟩
    rw [r.run_answer_single]
    exact ⟨List.forall_mem_singleton.2 rfl, surely_true _⟩
  have alone : ({} : Runner Id Nat).IgnoresCount := fun f hf => absurd hf (by simp)
  have full := (answers_isolated alone).1 surveys rfl
  obtain ⟨-, isolated, sharp⟩ := answers_isolated ignores
  refine ⟨ignores, full, apart, rfl, isolated surveys apart, ?_, rfl, ?_⟩
  · simp only [surveys, List.mapM_cons, List.mapM_nil, Id.run_bind, Id.run_pure,
      Runner.freshAnswer_single]
    rfl
  · exact (sharp r rfl found ⟨1⟩ 5).1 rfl (.single measure) (List.forall_mem_singleton.2 rfl)

/-- A number is measured, and then another one. -/
def repeated : List (Call Id Nat) := [⟨.single measure, 1, .empty⟩, ⟨.single measure, 2, .empty⟩]

/-- The second number is not measured, for the analysis is valid since the first call. -/
theorem answers_repeated :
    let r : Runner Id Nat := { legacySkip := true }
    ((r.answers repeated).run RunState.empty).run.1.map (fun answer => answer.2.get? "size") =
        [some (.int 1), none] ∧
      (repeated.mapM r.freshAnswer).run.map (fun answer => answer.2.get? "size") =
        [some (.int 1), some (.int 2)] := by
  intro r
  constructor
  · simp only [repeated, Runner.answers, List.mapM_cons, List.mapM_nil, StateT.run_bind,
      Id.run_bind, Runner.run_answer_single]
    rfl
  · simp only [repeated, List.mapM_cons, List.mapM_nil, Id.run_bind, Id.run_pure,
      Runner.freshAnswer_single]
    rfl

end QuantumControl.Pipeline
