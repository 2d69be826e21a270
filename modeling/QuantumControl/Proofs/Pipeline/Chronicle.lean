import Mathlib.Data.List.Dedup
import Mathlib.Data.List.Induction
import QuantumControl.Proofs.Pipeline.Skipping

/-!
# What a memory says about a run

A runner keeps a count and the identities of valid passes, and forgets everything else.
Here a run keeps its whole chronicle instead, one entry for each pass that succeeded, and
decides by the chronicle what to skip (`Runner.follow`).  The memory is a summary of it:
the count is its length, and the valid passes are those of its last part, which begins
with the last transformation (`Chronicle.current`).

The two kinds of runs are one, seen through this summary: each step that the memory takes
is a step of the chronicle (`Runner.recalls_follow`), so whole trees are related by a
`Simulation`, whichever way they end.
-/

namespace QuantumControl.Pipeline

variable {m : Type → Type} {P : Type}

/-- A pass that ran and succeeded, the program that it returned, and the properties right after
it. -/
structure Execution (m : Type → Type) (P : Type) where
  pass : Pass m P
  program : P
  properties : PropertySet

def Execution.transforms (e : Execution m P) : Bool := e.pass.kind = .transformation

/-- The passes that ran and succeeded, in the order in which they ran. -/
abbrev Chronicle (m : Type → Type) (P : Type) := List (Execution m P)

namespace Chronicle

/-- What ran from the last transformation on, this one included; or everything, if none ran. -/
def current : Chronicle m P → Chronicle m P
  | [] => []
  | e :: later => if later.any Execution.transforms then current later else e :: later

/-- The memory of a runner that recorded what ran. -/
def memory (h : Chronicle m P) : RunState :=
  h.foldl (fun s e => s.record e.pass.id e.pass.kind) RunState.empty

/-- A pass with the identity is part of what ran since the last transformation. -/
def recent (h : Chronicle m P) (id : TaskId) : Bool := h.current.any (·.pass.id = id)

/-! ## Summaries -/

variable (h : Chronicle m P) (e : Execution m P)

theorem current_append :
    current (h ++ [e]) = if e.transforms then [e] else h.current ++ [e] := by
  induction h with
  | nil => cases e.transforms <;> rfl
  | cons first later ih =>
      rw [List.cons_append, current, List.any_append, ih, current]
      cases later.any Execution.transforms <;> cases transforms : e.transforms <;>
        simp [transforms]

/-- What is current is everything, and no transformation ran; or it begins with the last one that
ran. -/
theorem current_cases :
    (h.current = h ∧ ∀ e ∈ h, ¬ e.transforms) ∨
      ∃ earlier last later, h = earlier ++ last :: later ∧ h.current = last :: later ∧
        last.transforms ∧ ∀ e ∈ later, ¬ e.transforms := by
  induction h using List.reverseRecOn with
  | nil => exact .inl ⟨rfl, fun e mem => absurd mem List.not_mem_nil⟩
  | append_singleton h e ih =>
      rw [current_append]
      by_cases transforms : e.transforms
      · rw [if_pos transforms]
        exact .inr ⟨h, e, [], rfl, rfl, transforms, fun _ mem => absurd mem List.not_mem_nil⟩
      · rw [if_neg transforms]
        rcases ih with ⟨all, none⟩ | ⟨earlier, last, later, parts, from_last, is_last, none⟩
        · refine .inl ⟨by rw [all], ?_⟩
          exact List.forall_mem_append.2 ⟨none, List.forall_mem_singleton.2 transforms⟩
        · refine .inr ⟨earlier, last, later ++ [e], ?_, ?_, is_last, ?_⟩
          · rw [parts, List.append_assoc, List.cons_append]
          · rw [from_last, List.cons_append]
          · exact List.forall_mem_append.2 ⟨none, List.forall_mem_singleton.2 transforms⟩

theorem memory_append : memory (h ++ [e]) = h.memory.record e.pass.id e.pass.kind := by
  rw [memory, List.foldl_append]
  rfl

theorem count_memory : h.memory.count = h.length := by
  induction h using List.reverseRecOn with
  | nil => rfl
  | append_singleton h e ih =>
      rw [memory_append, List.length_append, ← ih]
      rfl

theorem recent_iff {id : TaskId} : h.recent id ↔ ∃ e ∈ h.current, e.pass.id = id := by
  simp [recent]

/-- What is valid is what ran since the last transformation. -/
theorem isValid_memory (id : TaskId) : h.memory.isValid id = h.recent id := by
  rw [Bool.eq_iff_iff, recent_iff]
  induction h using List.reverseRecOn with
  | nil => simp [memory, current, RunState.empty, RunState.isValid]
  | append_singleton h e ih =>
      rw [memory_append, RunState.isValid_record, current_append, ih]
      by_cases transforms : e.pass.kind = .transformation
      · simp [Execution.transforms, transforms, eq_comm]
      · simp [Execution.transforms, transforms, or_and_right, exists_or, or_comm, eq_comm]

theorem nodup_memory : h.memory.completed.Nodup := by
  induction h using List.reverseRecOn with
  | nil => exact List.nodup_nil
  | append_singleton h e ih =>
      rw [memory_append, RunState.record]
      split
      · exact List.nodup_singleton _
      · exact ih.insert

/-- The number of valid passes is the number of identities of what ran since the last
transformation. -/
theorem validPasses_memory :
    h.memory.validPasses = (h.current.map (·.pass.id)).dedup.length := by
  refine List.Perm.length_eq ((List.perm_ext_iff_of_nodup h.nodup_memory (List.nodup_dedup _)).2 ?_)
  intro id
  rw [← RunState.isValid_iff, isValid_memory, recent_iff, List.mem_dedup, List.mem_map]

end Chronicle

/-! ## Runs that keep a chronicle -/

/-- The effects of a run that keeps a chronicle. -/
abbrev ChronicleM (m : Type → Type) (P : Type) :=
  ExceptT PassError (StateT (Chronicle m P) (StateT PropertySet m))

section Follow

variable [Monad m]

/-- An effect that is given the current properties. -/
def ChronicleM.ask {α : Type} (f : PropertySet → m α) : ChronicleM m P α :=
  ExceptT.mk fun h properties => do return ((.ok (← f properties), h), properties)

/-- Run a pass, unless it is an analysis that may be skipped and ran since the last transformation.
If the pass succeeds, this is entered into the chronicle and shown to the observer. -/
def Runner.follow (r : Runner m P) (p : Pass m P) (program : P) : ChronicleM m P P :=
  ExceptT.mk fun h properties => do
    if r.legacySkip && p.kind = .analysis && h.recent p.id then
      return ((.ok program, h), properties)
    else
      match ← (p.run program).run.run properties with
      | (.ok out, after) =>
          r.notify ⟨p, out, after, h.length + 1⟩
          return ((.ok out, h ++ [⟨p, out, after⟩]), after)
      | (.error error, after) => return ((.error error, h), after)

/-- Run a controller and keep a chronicle. -/
def Runner.chronicle (r : Runner m P) (root : Controller m P) (program : P) : ChronicleM m P P :=
  root.toTask.interpret r.follow ChronicleM.ask program

end Follow

/-! ## The summary of a run -/

/-- The end of a run, with the memory of the chronicle in its place. -/
def Chronicle.recalled {α : Type} (run : (Except PassError α × Chronicle m P) × PropertySet) :
    (Except PassError α × RunState) × PropertySet :=
  ((run.1.1, run.1.2.memory), run.2)

section Recalls

variable [Monad m] {α : Type}

/-- From the memory of a chronicle, a run does what the one that keeps the chronicle does. -/
def Recalls (x : RunM m α) (y : ChronicleM m P α) : Prop :=
  ∀ h p, (x.run.run (Chronicle.memory h)).run p = Chronicle.recalled <$> (y.run.run h).run p

theorem ChronicleM.run_ask (f : PropertySet → m α) (h : Chronicle m P) (p : PropertySet) :
    ((ask f : ChronicleM m P α).run.run h).run p = f p >>= fun a => pure ((.ok a, h), p) := rfl

theorem Runner.run_follow (r : Runner m P) (pass : Pass m P) (program : P) (h : Chronicle m P)
    (p : PropertySet) :
    ((r.follow pass program).run.run h).run p =
      if r.legacySkip && pass.kind = .analysis && h.recent pass.id then pure ((.ok program, h), p)
      else (pass.run program).run.run p >>= fun run =>
        match run with
        | (.ok out, after) =>
            r.notify ⟨pass, out, after, h.length + 1⟩ >>= fun _ =>
              pure ((.ok out, h ++ [⟨pass, out, after⟩]), after)
        | (.error error, after) => pure ((.error error, h), after) := rfl

variable [LawfulMonad m]

theorem simulation_recalls : Simulation (RunM m) (ChronicleM m P) Recalls where
  pure a h p := (map_pure (f := m) Chronicle.recalled ((.ok a, h), p)).symm
  throw error h p := (map_pure (f := m) Chronicle.recalled ((.error error, h), p)).symm
  bind {α β x y f g} first next h p := by
    rw [RunM.run_bind, RunM.run_bind, first, map_bind, bind_map_left]
    refine bind_congr fun ⟨⟨result, h'⟩, p'⟩ => ?_
    cases result with
    | error error => exact (map_pure Chronicle.recalled ((.error error, h'), p')).symm
    | ok a => exact next a h' p'

theorem recalls_ask (f : PropertySet → m α) :
    Recalls (RunM.withProperties f) (ChronicleM.ask f : ChronicleM m P α) := by
  intro h p
  rw [RunM.run_withProperties, ChronicleM.run_ask, map_bind]
  exact bind_congr fun a => (map_pure Chronicle.recalled ((.ok a, h), p)).symm

namespace Runner

variable (r : Runner m P)

/-- To run a pass and to follow it is the same to the memory. -/
theorem recalls_follow (pass : Pass m P) (program : P) :
    Recalls (r.runPass pass program) (r.follow pass program) := by
  intro h p
  rw [run_runPass, run_follow, Chronicle.isValid_memory]
  split
  · exact (map_pure Chronicle.recalled ((.ok program, h), p)).symm
  · rw [run_perform, map_bind]
    refine bind_congr fun ⟨result, after⟩ => ?_
    cases result with
    | error error => exact (map_pure Chronicle.recalled ((.error error, h), after)).symm
    | ok out =>
        dsimp only
        rw [Chronicle.count_memory, ← Chronicle.memory_append h ⟨pass, out, after⟩, map_bind]
        exact bind_congr fun _ => (map_pure Chronicle.recalled ((.ok out, h ++ [_]), after)).symm

theorem recalls_chronicle (root : Controller m P) (program : P) :
    Recalls (r.execute root program) (r.chronicle root program) := by
  rw [execute_eq_interpret]
  exact Task.interpret_related simulation_recalls r.recalls_follow recalls_ask root.toTask program

/-- On a fresh runner a run is the one that keeps a chronicle, however it ends.  The memory that it
leaves counts the passes that ran and succeeded, and has as valid, each once, the identities of
those that ran from the last transformation on, or of all if none ran.  A pass is skipped, and
then nothing changes, if and only if skipping is on and it is an analysis among those identities
at that moment. -/
theorem execute_eq_chronicle (root : Controller m P) (program : P) (p : PropertySet) :
    ((r.execute root program).run.run RunState.empty).run p =
        Chronicle.recalled <$> ((r.chronicle root program).run.run []).run p ∧
      (∀ h : Chronicle m P, h.memory.count = h.length ∧
        (∀ id, h.memory.isValid id ↔ ∃ e ∈ h.current, e.pass.id = id) ∧
        h.memory.validPasses = (h.current.map (·.pass.id)).dedup.length ∧
        ((h.current = h ∧ ∀ e ∈ h, ¬ e.transforms) ∨
          ∃ earlier last later, h = earlier ++ last :: later ∧ h.current = last :: later ∧
            last.transforms ∧ ∀ e ∈ later, ¬ e.transforms)) ∧
      ∀ (h : Chronicle m P) (pass : Pass m P) (program : P) (p : PropertySet),
        let skips := r.legacySkip ∧ pass.kind = .analysis ∧ ∃ e ∈ h.current, e.pass.id = pass.id
        let run := ((r.runPass pass program).run.run h.memory).run p
        (skips → run = pure ((.ok program, h.memory), p)) ∧
          (¬ skips → run = ((r.perform pass program).run.run h.memory).run p) := by
  refine ⟨r.recalls_chronicle root program [] p, fun h => ?_, fun h pass program p => ?_⟩
  · refine ⟨h.count_memory, fun id => ?_, h.validPasses_memory, h.current_cases⟩
    rw [Chronicle.isValid_memory, Chronicle.recent_iff]
  · intro skips run
    have decides : (r.legacySkip && pass.kind = .analysis && h.memory.isValid pass.id) ↔ skips := by
      rw [Chronicle.isValid_memory, Bool.and_eq_true, Bool.and_eq_true, Chronicle.recent_iff,
        decide_eq_true_iff, and_assoc]
    have runs := r.run_runPass pass program h.memory p
    simp only [decides] at runs
    exact ⟨fun yes => runs.trans (if_pos yes), fun no => runs.trans (if_neg no)⟩

end Runner

end Recalls

/-- A number that is measured, grows, and is measured twice, again and again. -/
def overgrown : Controller Id Nat where
  id := ⟨0⟩
  flow := .doWhile fun p => p.contains "size"
  options := { maxIteration := 2 }
  tasks := [.pass measure, .pass (grow .transformation), .pass measure, .pass measure]

/-- In its second pass the loop skips two of three measurements, and then fails at its ceiling. -/
theorem execute_overgrown :
    let r : Runner Id Nat := { legacySkip := true }
    let run := (((r.execute overgrown 0).run.run RunState.empty).run .empty).run
    run.1.1 = .error (.maxIterationReached 2) ∧ run.1.2.count = 5 ∧ run.1.2.isValid ⟨1⟩ ∧
      run.1.2.isValid ⟨2⟩ ∧ run.1.2.validPasses = 2 := by
  intro r run
  have same := (r.execute_eq_chronicle overgrown 0 .empty).1
  have ended : run = Chronicle.recalled (((r.chronicle overgrown 0).run.run []).run .empty).run :=
    same
  rw [ended]
  exact ⟨rfl, rfl, rfl, rfl, rfl⟩

end QuantumControl.Pipeline
