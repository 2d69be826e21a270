import Mathlib.Logic.Relation
import QuantumControl.Proofs.Pipeline.Coupling

/-!
# Skipping analyses that are valid

A runner may leave out an analysis that already ran, as long as no transformation
ran since.  This changes nothing but the count if the findings of analyses stand:
an analysis that succeeded has nothing to add, whichever passes other than
transformations succeed after it (`Stable`).

The invariant of the two runs is `Settled`: what the memory has as valid has been
found on the program of the moment, and only passes that keep the program ran since.
It speaks of the program, so the two runs are compared by a coupling.  A leaf of the
kind that schedules tasks is not a transformation to a runner.  One that replaces
the program all the same outdates nothing, as the last example shows, so the
invariant asks such leaves to keep the program too.
-/

namespace QuantumControl.Pipeline

variable {P : Type}

/-! ## Analyses whose findings stand -/

namespace Controller

variable {m : Type → Type}

def analyses (c : Controller m P) : List (Pass m P) := c.leaves.filter (·.kind = .analysis)

/-- The leaves that outdate nothing: all but the transformations. -/
def keepers (c : Controller m P) : List (Pass m P) := c.leaves.filter (·.kind ≠ .transformation)

/-- Leaves with one identity are one pass, at however many places of the tree. -/
def Identified (c : Controller m P) : Prop :=
  ∀ a ∈ c.leaves, ∀ b ∈ c.leaves, a.id = b.id → a = b

theorem mem_analyses {c : Controller m P} {a : Pass m P} :
    a ∈ c.analyses ↔ a ∈ c.leaves ∧ a.kind = .analysis := by
  rw [analyses, List.mem_filter, decide_eq_true_iff]

theorem mem_keepers {c : Controller m P} {a : Pass m P} :
    a ∈ c.keepers ↔ a ∈ c.leaves ∧ a.kind ≠ .transformation := by
  rw [keepers, List.mem_filter, decide_eq_true_iff]

end Controller

/-- One of the passes runs on a program, succeeds and keeps the program. -/
def Step (passes : List (Pass Id P)) (program : P) (p q : PropertySet) : Prop :=
  ∃ a ∈ passes, a.outcome program p = (.ok program, q)

/-- The analyses have nothing to add once they succeeded, whichever of the keepers succeed after
them; and no keeper replaces the program. -/
structure Stable (analyses keepers : List (Pass Id P)) : Prop where
  keeps : ∀ a ∈ keepers, ∀ program p out q, a.outcome program p = (.ok out, q) → out = program
  stands : ∀ a ∈ analyses, ∀ program p₀ p₁ p₂, a.outcome program p₀ = (.ok program, p₁) →
    Relation.ReflTransGen (Step keepers program) p₁ p₂ →
    a.outcome program p₂ = (.ok program, p₂)

/-- Each valid analysis was found on this program, and only keepers succeeded since. -/
def Settled (root : Controller Id P) (program : P) (properties : PropertySet)
    (state : RunState) : Prop :=
  ∀ a ∈ root.analyses, state.isValid a.id → ∃ before after,
    a.outcome program before = (.ok program, after) ∧
      Relation.ReflTransGen (Step root.keepers program) after properties

/-! ## Memories -/

namespace RunState

theorem isValid_iff {s : RunState} {id : TaskId} : s.isValid id ↔ id ∈ s.completed :=
  List.contains_iff_mem

theorem isValid_record {s : RunState} {id other : TaskId} {kind : PassKind} :
    (s.record id kind).isValid other ↔
      other = id ∨ kind ≠ .transformation ∧ s.isValid other := by
  rw [isValid_iff, isValid_iff, record]
  by_cases transforms : kind = .transformation
  · simp [transforms]
  · simp [transforms]

/-- One memory has the same valid passes as another one, and counted no more passes. -/
structure Lags (s t : RunState) : Prop where
  completed : s.completed = t.completed
  count : s.count ≤ t.count

theorem Lags.record {s t : RunState} (h : s.Lags t) (id : TaskId) (kind : PassKind) :
    (s.record id kind).Lags (t.record id kind) := by
  refine ⟨?_, Nat.succ_le_succ h.count⟩
  rw [RunState.record, RunState.record, h.completed]

/-- Recording a valid pass again only counts it. -/
theorem Lags.record_of_valid {s t : RunState} (h : s.Lags t) {id : TaskId} (valid : s.isValid id)
    {kind : PassKind} (keeps : kind ≠ .transformation) : s.Lags (t.record id kind) := by
  refine ⟨?_, Nat.le_succ_of_le h.count⟩
  rw [isValid_iff, h.completed] at valid
  rw [RunState.record, if_neg keeps, List.insert_of_mem valid, h.completed]

end RunState

/-! ## Two runs in step -/

/-- The ends of a run that skips and of a run that does not. -/
structure InStep (root : Controller Id P) (skipped full : Ending P) : Prop where
  result : skipped.1.1 = full.1.1
  properties : skipped.2 = full.2
  memory : skipped.1.2.Lags full.1.2
  settled : ∀ program, skipped.1.1 = .ok program → Settled root program skipped.2 skipped.1.2

/-- From memories in step and settled analyses both functions end in step. -/
def KeepInStep (root : Controller Id P) (f g : P → RunM Id P) : Prop :=
  ∀ program s t p, RunState.Lags s t → Settled root program p s →
    InStep root ((f program).ending s p) ((g program).ending t p)

theorem coupling_keepInStep (root : Controller Id P) :
    Coupling (RunM Id) (RunM Id) RunM.withProperties RunM.withProperties (KeepInStep root) where
  pure := by
    intro program s t p lags settled
    exact ⟨rfl, rfl, lags, fun _ same => Except.ok.inj same ▸ settled⟩
  throw error := by
    intro program s t p lags settled
    exact ⟨rfl, rfl, lags, fun _ same => nomatch same⟩
  bind {f g f' g'} first next := by
    intro program s t p lags settled
    obtain ⟨result, properties, lags, settled⟩ := first program s t p lags settled
    rw [RunM.ending_bind, RunM.ending_bind]
    generalize (f program).ending s p = skipped at *
    generalize (f' program).ending t p = full at *
    obtain ⟨⟨result₁, s'⟩, p'⟩ := skipped
    obtain ⟨⟨result₂, t'⟩, q'⟩ := full
    obtain rfl : result₁ = result₂ := result
    obtain rfl : p' = q' := properties
    cases result₁ with
    | error error => exact ⟨rfl, rfl, lags, fun _ same => nomatch same⟩
    | ok program => exact next program s' t' p' lags (settled program rfl)
  choice holds := by
    intro f g f' g' yes no program s t p lags settled
    rw [RunM.ending_choice, RunM.ending_choice]
    split
    · exact yes program s t p lags settled
    · exact no program s t p lags settled

section Leaf

variable {root : Controller Id P} (identified : root.Identified)
  (stable : Stable root.analyses root.keepers)

include identified stable

/-- A pass that succeeds and is recorded leaves the valid analyses settled: a transformation
leaves none, any other pass adds itself and one step to all that are there. -/
theorem Settled.record {program out : P} {p q : PropertySet} {s : RunState}
    (settled : Settled root program p s) {pass : Pass Id P} (mem : pass ∈ root.leaves)
    (h : pass.outcome program p = (.ok out, q)) :
    Settled root out q (s.record pass.id pass.kind) := by
  intro a ha valid
  obtain ⟨leaf, kind⟩ := Controller.mem_analyses.1 ha
  rcases RunState.isValid_record.1 valid with same | ⟨keeps, valid⟩
  · obtain rfl : a = pass := identified a leaf pass mem same
    have keeper := Controller.mem_keepers.2 ⟨mem, by simp [kind]⟩
    obtain rfl := stable.keeps a keeper program p out q h
    exact ⟨p, q, h, .refl⟩
  · have keeper := Controller.mem_keepers.2 ⟨mem, keeps⟩
    obtain rfl := stable.keeps pass keeper program p out q h
    obtain ⟨before, after, found, since⟩ := settled a ha valid
    exact ⟨before, after, found, since.tail ⟨pass, keeper, h⟩⟩

theorem keepInStep_runPass (skipping full : Runner Id P) (skips : skipping.legacySkip = true)
    (runs : full.legacySkip = false) {pass : Pass Id P} (mem : pass ∈ root.leaves) :
    KeepInStep root (skipping.runPass pass) (full.runPass pass) := by
  intro program s t p lags settled
  rw [Runner.ending_runPass, Runner.ending_runPass, skips, runs]
  simp only [Bool.true_and, Bool.false_and, Bool.false_eq_true, if_false, Bool.and_eq_true,
    decide_eq_true_eq]
  split
  · next valid =>
      obtain ⟨kind, valid⟩ := valid
      have analysis := Controller.mem_analyses.2 ⟨mem, kind⟩
      obtain ⟨before, after, found, since⟩ := settled pass analysis valid
      rw [stable.stands pass analysis program before after p found since]
      exact ⟨rfl, rfl, lags.record_of_valid valid (by simp [kind]),
        fun _ same => Except.ok.inj same ▸ settled⟩
  · cases h : pass.outcome program p with
    | mk result after =>
        cases result with
        | error error => exact ⟨rfl, rfl, lags, fun _ same => nomatch same⟩
        | ok out =>
            refine ⟨rfl, rfl, lags.record pass.id pass.kind, fun _ same => ?_⟩
            rw [← Except.ok.inj same]
            exact settled.record identified stable mem h

end Leaf

/-! ## Runs on fresh runners -/

/-- Where the run of a tree on a fresh runner ends. -/
def Controller.ending (root : Controller Id P) (legacySkip : Bool) (program : P)
    (properties : PropertySet) : Ending P :=
  (({ legacySkip } : Runner Id P).execute root program).ending RunState.empty properties

/-- If findings stand, skipping valid analyses leaves the same program or error, the same
properties and the same valid passes, and runs no more passes. -/
theorem ending_skipping (root : Controller Id P) (identified : root.Identified)
    (stable : Stable root.analyses root.keepers) (program : P) (properties : PropertySet) :
    let skipped := root.ending true program properties
    let full := root.ending false program properties
    skipped.1.1 = full.1.1 ∧ skipped.2 = full.2 ∧
      skipped.1.2.completed = full.1.2.completed ∧ skipped.1.2.count ≤ full.1.2.count := by
  intro skipped full
  have coupled := Task.interpret_coupled (coupling_keepInStep root) root.toTask
    fun pass mem => keepInStep_runPass identified stable { legacySkip := true }
      { legacySkip := false } rfl rfl mem
  have fresh : RunState.empty.Lags RunState.empty := ⟨rfl, Nat.le_refl _⟩
  have inStep := coupled program _ _ properties fresh fun a ha valid => nomatch valid
  rw [← Runner.execute_eq_interpret, ← Runner.execute_eq_interpret] at inStep
  exact ⟨inStep.result, inStep.properties, inStep.memory.completed, inStep.memory.count⟩

/-! ## A counter -/

section Counter

/-- An analysis that finds the program itself, a number. -/
def measure : Pass Id Nat :=
  .analysis ⟨1⟩ "measure" fun n => modifyThe PropertySet (·.set "size" (.int n))

def grow (kind : PassKind) : Pass Id Nat := ⟨⟨2⟩, "grow", kind, fun n => return n + 1⟩

def idle : Pass Id Nat := ⟨⟨3⟩, "idle", .flow, fun n => return n⟩

theorem outcome_measure (n : Nat) (p : PropertySet) :
    measure.outcome n p = (.ok n, p.set "size" (.int n)) := rfl

theorem stable_measure {analyses keepers : List (Pass Id Nat)} (ha : ∀ a ∈ analyses, a = measure)
    (hk : ∀ a ∈ keepers, a = measure ∨ a = idle) : Stable analyses keepers where
  keeps := by
    intro a mem program p out q h
    rcases hk a mem with rfl | rfl
    · exact (Except.ok.inj (congrArg Prod.fst h)).symm
    · exact (Except.ok.inj (congrArg Prod.fst h)).symm
  stands := by
    intro a mem program p₀ p₁ p₂ found since
    obtain rfl := ha a mem
    obtain rfl : p₀.set "size" (.int program) = p₁ := congrArg Prod.snd found
    have kept : p₂ = p₀.set "size" (.int program) := by
      induction since with
      | refl => rfl
      | tail _ step ih =>
          obtain ⟨b, hb, h⟩ := step
          rw [ih] at h
          rcases hk b hb with rfl | rfl
          · rw [← PropertySet.set_set]
            exact (congrArg Prod.snd h).symm
          · exact (congrArg Prod.snd h).symm
    rw [kept, outcome_measure, PropertySet.set_set]

/-- The number is measured, grows, and is measured again, before and within a condition. -/
def remeasure : Controller Id Nat where
  id := ⟨0⟩
  flow := .linear
  options := {}
  tasks := [.pass measure, .pass measure, .pass (grow .transformation), .pass measure,
    .pass idle, .controller ⟨4⟩ (.condition fun p => p.contains "size") {} [.pass measure]]

theorem ending_skipping_remeasure :
    remeasure.Identified ∧ Stable remeasure.analyses remeasure.keepers ∧
      (remeasure.ending true 0 .empty).1.2.count = 4 ∧
      (remeasure.ending false 0 .empty).1.2.count = 6 ∧
      (remeasure.ending true 0 .empty).2 = (remeasure.ending false 0 .empty).2 := by
  have leaves : ∀ a ∈ remeasure.leaves, a = measure ∨ a = grow .transformation ∨ a = idle := by
    simp [remeasure, Controller.leaves, Controller.toTask, Task.leaves, Task.leavesAll]
  have identified : remeasure.Identified := by
    intro a ha b hb same
    rcases leaves a ha with rfl | rfl | rfl <;> rcases leaves b hb with rfl | rfl | rfl
    all_goals first | rfl | exact absurd same (by decide)
  have stable : Stable remeasure.analyses remeasure.keepers := by
    refine stable_measure (fun a mem => ?_) fun a mem => ?_
    · obtain ⟨leaf, kind⟩ := Controller.mem_analyses.1 mem
      rcases leaves a leaf with rfl | rfl | rfl
      · rfl
      · cases kind
      · cases kind
    · obtain ⟨leaf, kind⟩ := Controller.mem_keepers.1 mem
      rcases leaves a leaf with rfl | rfl | rfl
      · exact .inl rfl
      · exact absurd rfl kind
      · exact .inr rfl
  refine ⟨identified, stable, ?_, ?_, (ending_skipping remeasure identified stable 0 .empty).2.1⟩
  · rw [Controller.ending, Runner.execute_eq_interpret]
    rfl
  · rw [Controller.ending, Runner.execute_eq_interpret]
    rfl

/-- A leaf that is neither an analysis nor a transformation may replace the program and outdates
nothing: the run that skips keeps what was found on the program before it. -/
theorem flow_leaf_outdates_nothing :
    let root : Controller Id Nat :=
      ⟨⟨0⟩, .linear, {}, [.pass measure, .pass (grow .flow), .pass measure]⟩
    root.Identified ∧ Stable root.analyses root.analyses ∧
      (root.ending true 0 .empty).2.get? "size" = some (.int 0) ∧
      (root.ending false 0 .empty).2.get? "size" = some (.int 1) := by
  intro root
  have leaves : ∀ a ∈ root.leaves, a = measure ∨ a = grow .flow := by
    simp [root, Controller.leaves, Controller.toTask, Task.leaves, Task.leavesAll]
  have analyses : ∀ a ∈ root.analyses, a = measure := by
    intro a mem
    obtain ⟨leaf, kind⟩ := Controller.mem_analyses.1 mem
    rcases leaves a leaf with rfl | rfl
    · rfl
    · cases kind
  refine ⟨?_, stable_measure analyses fun a mem => .inl (analyses a mem), ?_, ?_⟩
  · intro a ha b hb same
    rcases leaves a ha with rfl | rfl <;> rcases leaves b hb with rfl | rfl
    all_goals first | rfl | exact absurd same (by decide)
  · rw [Controller.ending, Runner.execute_eq_interpret]
    rfl
  · rw [Controller.ending, Runner.execute_eq_interpret]
    rfl

end Counter

end QuantumControl.Pipeline
