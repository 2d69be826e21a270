import QuantumControl.Circuit.Transpiler
import QuantumControl.Proofs.Circuit.Counting
import QuantumControl.Proofs.Circuit.Reduction
import QuantumControl.Proofs.Circuit.Sightings
import QuantumControl.Proofs.Pipeline.Coupling
import QuantumControl.Proofs.Pipeline.Registry

/-!
# The transpiler finds the normal form

The loop of the transpiler knows a gate list by its size only: it stops when the
size that is recorded after a sweep is the one before it.  Before every sweep but
the first, the last observed size is that of the current list, and this is the
invariant of the loop (`Observed`).  Where the loop stops, a sweep has therefore
not shortened the list, so that there was no pair in it.
-/

namespace QuantumControl.Circuit

open Pipeline

/-! ## One sweep -/

/-- The list after a sweep. -/
def swept (l : GateList) : GateList := { l with gates := cancelPairs l.gates }

/-- The properties after a sweep that was counted and compared with the one before. -/
def sweptProperties (l : GateList) (p : PropertySet) : PropertySet :=
  observeProperty "size" (recordOps (swept l) p)

/-- No size was observed yet, or that of the list. -/
def Observed (p : PropertySet) (l : GateList) : Prop :=
  p.get? (previousKey "size") = none ∨ p.get? (previousKey "size") = some (.int l.size)

theorem sizeChanges_of_flag {p : PropertySet} {fixed : Bool}
    (h : p.get? (fixedPointFlag "size") = some (.bool fixed)) : sizeChanges p = !fixed := by
  rw [sizeChanges, PropertySet.getAs?, h]
  rfl

section Sweep

variable (l : GateList) (p : PropertySet)

theorem previous_sweptProperties :
    (sweptProperties l p).get? (previousKey "size") = some (.int (swept l).size) := by
  rw [sweptProperties, previous_observeProperty, (describes_recordOps (swept l) p).size]
  rfl

theorem observed_sweptProperties : Observed (sweptProperties l p) (swept l) :=
  .inr (previous_sweptProperties l p)

theorem describes_sweptProperties : Describes (sweptProperties l p) (swept l) := by
  rw [sweptProperties, observeProperty_of_some (describes_recordOps (swept l) p).size]
  exact ((describes_recordOps (swept l) p).set (by simp [fixedPointFlag]) _).set
    (by simp [previousKey]) _

/-- The size is flagged as fixed if it is the one that was observed before. -/
theorem flag_sweptProperties :
    (sweptProperties l p).get? (fixedPointFlag "size") =
      some (.bool (some (.int (swept l).size) == p.get? (previousKey "size"))) := by
  rw [sweptProperties, flag_observeProperty, (describes_recordOps (swept l) p).size,
    previous_recordOps]
  rfl

theorem sizeChanges_sweptProperties :
    sizeChanges (sweptProperties l p) =
      !(some (.int (swept l).size) == p.get? (previousKey "size")) :=
  sizeChanges_of_flag (flag_sweptProperties l p)

/-- A sweep after which the size is found to be stable has found no pair. -/
theorem reduced_of_stable (inv : Observed p l)
    (stable : sizeChanges (sweptProperties l p) = false) : Reduced l.gates := by
  rw [sizeChanges_sweptProperties, Bool.not_eq_false'] at stable
  rcases inv with first | previous
  · rw [first] at stable
    cases stable
  · rw [previous, Option.some_beq_some, Json.beq_int] at stable
    have same : (swept l).size = l.size := Int.ofNat.inj (eq_of_beq stable)
    exact reduced_of_length_cancelPairs same

end Sweep

/-! ## Running the passes -/

section Run

variable (r : Runner Id GateList)

/-- A pass that is not skipped and succeeds is recorded; an observer has no say in it. -/
theorem run_runPass {r : Runner Id GateList} {pass : Pass Id GateList} {l out : GateList}
    {state : RunState} {p q : PropertySet}
    (fresh : r.legacySkip = true → pass.kind = .analysis → state.isValid pass.id = false)
    (h : (pass.run l).run.run p = (.ok out, q)) :
    ((r.runPass pass l).run.run state).run p =
      ((.ok out, state.record pass.id pass.kind), q) := by
  have ran := r.ending_runPass pass l state p
  rw [Pass.outcome, h, if_neg] at ran
  · exact ran
  · intro skipped
    rw [Bool.and_eq_true, Bool.and_eq_true, decide_eq_true_eq] at skipped
    obtain ⟨⟨skips, analysis⟩, valid⟩ := skipped
    rw [fresh skips analysis] at valid
    cases valid

theorem outside?_eq_none {l : GateList}
    (inside : ∀ g ∈ l.gates, ∀ q ∈ g.qubits, q < l.numQubits) : l.outside? = none := by
  refine List.findSome?_eq_none_iff.2 fun g hg => ?_
  rw [Option.map_eq_none_iff, List.find?_eq_none]
  intro q hq above
  exact absurd (inside g hg q hq) (UInt32.not_lt.2 (of_decide_eq_true above))

theorem run_checkQubits (id : TaskId) {l : GateList} (h : l.outside? = none) (p : PropertySet) :
    ((checkQubits (m := Id) id).run l).run.run p = (.ok l, p) := by
  simp only [checkQubits, Pass.analysis, h]
  rfl

/-- The memory after the passes of a sweep. -/
def sweptState (state : RunState) : RunState :=
  ((state.record ⟨3⟩ .transformation).record ⟨4⟩ .analysis).record ⟨5⟩ .analysis

/-- The passes of the loop never fail, and none is skipped after the transformation. -/
theorem run_optimizeTasks (l : GateList) (state : RunState) (p : PropertySet) :
    ((r.interpretAll optimizeTasks l).run.run state).run p =
      ((.ok (swept l), sweptState state), sweptProperties l p) := by
  let first := state.record ⟨3⟩ .transformation
  let second := first.record ⟨4⟩ .analysis
  have cancel : ((r.runPass (cancelInversePairs ⟨3⟩) l).run.run state).run p =
      ((.ok (swept l), first), p) :=
    run_runPass (fun _ kind => nomatch kind) rfl
  have count : ((r.runPass (countOps ⟨4⟩) (swept l)).run.run first).run p =
      ((.ok (swept l), second), recordOps (swept l) p) :=
    run_runPass (fun _ _ => rfl) rfl
  have compare : ((r.runPass (fixedPoint ⟨5⟩ "size") (swept l)).run.run second).run
      (recordOps (swept l) p) =
      ((.ok (swept l), sweptState state), sweptProperties l p) :=
    run_runPass (fun _ _ => rfl) rfl
  rw [optimizeTasks, Runner.interpretAll, Task.interpretAll, Task.interpret,
    RunM.run_bind_of_ok cancel, Task.interpretAll, Task.interpret, RunM.run_bind_of_ok count,
    Task.interpretAll, Task.interpret, RunM.run_bind_of_ok compare]
  rfl

/-- What a run makes of a gate list, with the properties that it leaves. -/
structure Normalises (l out : GateList) (p : PropertySet) : Prop where
  gates : out.gates = reduce l.gates
  reduced : Reduced out.gates
  numQubits : out.numQubits = l.numQubits
  describes : Describes p out

/-- The loop, wherever it stops; by induction on the sweeps that it may still make. -/
theorem passes_normalises {ceiling left : Nat} {body : GateList → RunM Id GateList}
    (sweeps : ∀ l state p, ((body l).run.run state).run p =
      ((.ok (swept l), sweptState state), sweptProperties l p))
    {l out : GateList} {state rest : RunState} {p q : PropertySet} (inv : Observed p l)
    (h : ((passes ceiling (RunM.withProperties fun p => pure (sizeChanges p)) body left
      l).run.run state).run p = ((.ok out, rest), q)) : Normalises l out q := by
  induction left generalizing l state p with
  | zero => cases h
  | succ left ih =>
      rw [passes, RunM.run_bind_of_ok (sweeps l state p),
        RunM.run_bind_of_ok (RunM.run_withProperties_eq _)] at h
      cases stable : sizeChanges (sweptProperties l p) with
      | true =>
          rw [stable] at h
          obtain ⟨gates, reduced, numQubits, describes⟩ := ih (observed_sweptProperties l p) h
          exact ⟨gates.trans (reduce_cancelPairs l.gates), reduced, numQubits, describes⟩
      | false =>
          rw [stable] at h
          cases h
          have noPair := reduced_of_stable l p inv stable
          have same : swept l = l := congrArg (GateList.mk l.numQubits) noPair.cancelPairs_eq
          have describes := describes_sweptProperties l p
          rw [same] at describes ⊢
          exact ⟨noPair.reduce_eq.symm, noPair, rfl, describes⟩

end Run

/-! ## The whole pipeline -/

/-- What the factory builds around the passes of the loop. -/
def optimization (level : UInt8) (options : ControllerOptions) : Task Id GateList :=
  .controller ⟨8⟩ (.condition fun _ => pure (decide (0 < level))) options
    [.controller ⟨7⟩ (.doWhile fun p => pure (sizeChanges p)) options
      [.controller ⟨6⟩ .linear options optimizeTasks]]

/-- The transpiler is built without a fault, from the setup and the loop, and skips nothing. -/
theorem transpiler_tasks (level : UInt8) (options : ControllerOptions) :
    ∃ pm : PassManager Id GateList, transpiler level options = .ok pm ∧
      pm.legacySkip = false ∧ pm.tasks = setupTasks ++ [optimization level options] := by
  rw [transpiler, Factory.setHierarchy_standard]
  exact ⟨_, rfl, rfl, rfl⟩

/-- A manager runs its tasks as they are interpreted, with a runner that remembers nothing. -/
theorem run_of_interpretAll {pm : PassManager Id GateList}
    {observer : Option (Observation Id GateList → Id Unit)} {l : GateList} {p q : PropertySet}
    {result : Except PassError GateList} {rest : RunState}
    (h : (((pm.runner observer).interpretAll pm.tasks l).run.run RunState.empty).run p =
      ((result, rest), q)) :
    (pm.run observer l).run p = ((result, { pm with state := rest }), q) := by
  have executed : (((pm.runner observer).execute pm.root l).run.run RunState.empty).run p =
      ((result, rest), q) := by
    rw [Runner.execute_eq_interpret]
    exact h
  rw [PassManager.run, StateT.run_bind, executed]
  rfl

section Pipeline

variable (r : Runner Id GateList) {level : UInt8} {options : ControllerOptions}

/-- The memory after the setup. -/
def setupState : RunState := (RunState.empty.record ⟨1⟩ .analysis).record ⟨2⟩ .analysis

/-- The setup passes a list whose gates all act inside the register, and counts it. -/
theorem run_setupTasks {l : GateList} (h : l.outside? = none) (task : Task Id GateList)
    (p : PropertySet) :
    ((r.interpretAll (setupTasks ++ [task]) l).run.run RunState.empty).run p =
      ((task.interpret r.runPass RunM.withProperties l).run.run setupState).run
        (recordOps l p) := by
  let first := RunState.empty.record ⟨1⟩ .analysis
  have check : ((r.runPass (checkQubits ⟨1⟩) l).run.run RunState.empty).run p =
      ((.ok l, first), p) := run_runPass (fun _ _ => rfl) (run_checkQubits ⟨1⟩ h p)
  have count : ((r.runPass (countOps ⟨2⟩) l).run.run first).run p =
      ((.ok l, setupState), recordOps l p) := run_runPass (fun _ _ => rfl) rfl
  rw [setupTasks, Runner.interpretAll, List.cons_append, List.cons_append, List.nil_append,
    Task.interpretAll, Task.interpret, RunM.run_bind_of_ok check, Task.interpretAll,
    Task.interpret, RunM.run_bind_of_ok count, Task.interpretAll]
  simp only [Task.interpretAll, bind_pure]

/-- At level zero the loop is not entered. -/
theorem run_optimization_zero (zero : level = 0) (l : GateList) (state : RunState)
    (p : PropertySet) :
    (((optimization level options).interpret r.runPass RunM.withProperties l).run.run state).run p =
      ((.ok l, state), p) := by
  subst zero
  rw [optimization, Task.interpret, Flow.interpret,
    RunM.run_bind_of_ok (RunM.run_withProperties_eq _)]
  rfl

/-- Above level zero the loop is entered. -/
theorem run_optimization (pos : 1 ≤ level) (l : GateList) (state : RunState) (p : PropertySet) :
    (((optimization level options).interpret r.runPass RunM.withProperties l).run.run state).run p =
      ((passes options.maxIteration (RunM.withProperties fun p => pure (sizeChanges p))
        (r.interpretAll optimizeTasks) options.maxIteration l).run.run state).run p := by
  have enters : (pure (decide (0 < level)) : Id Bool) = true :=
    decide_eq_true (UInt8.lt_iff_toNat_lt.2 (UInt8.le_iff_toNat_le.1 pos))
  rw [optimization, Task.interpret, Flow.interpret,
    RunM.run_bind_of_ok (RunM.run_withProperties_eq _), if_pos enters]
  simp only [Task.interpretAll, Task.interpret, Flow.interpret, bind_pure]

/-- Above level zero the loop finds the normal form, if it stops. -/
theorem run_optimization_pos (pos : 1 ≤ level) {l out : GateList} {state rest : RunState}
    {p q : PropertySet} (inv : Observed p l)
    (h : (((optimization level options).interpret r.runPass RunM.withProperties
      l).run.run state).run p = ((.ok out, rest), q)) : Normalises l out q := by
  rw [run_optimization r pos] at h
  exact passes_normalises (run_optimizeTasks r) inv h

end Pipeline

theorem observed_recordOps (l : GateList) : Observed (recordOps l PropertySet.empty) l :=
  .inl (previous_recordOps l PropertySet.empty)

/-- Whatever the level, the options, the way of skipping and the observer: at level zero a run from
no properties leaves a gate list as it is, and above it a run that succeeds leaves its normal form,
over the same register; the recorded properties describe what is left. -/
theorem transpiler_normalises (level : UInt8) (options : ControllerOptions) {l : GateList}
    (inside : ∀ g ∈ l.gates, ∀ q ∈ g.qubits, q < l.numQubits) :
    ∃ pm, transpiler level options = .ok pm ∧
      ∀ skip before observer,
        let run := (({ pm with legacySkip := skip, state := before } : PassManager Id GateList).run
          observer l).run PropertySet.empty
        (level = 0 → run.1.1 = .ok l ∧ Describes run.2 l) ∧
          (1 ≤ level → ∀ out, run.1.1 = .ok out →
            out.gates = reduce l.gates ∧ Reduced out.gates ∧ out.numQubits = l.numQubits ∧
              Describes run.2 out) := by
  obtain ⟨pm, built, -, tasks⟩ := transpiler_tasks level options
  refine ⟨pm, built, fun skip before observer => ?_⟩
  let ready : PassManager Id GateList := { pm with legacySkip := skip, state := before }
  have setup := run_setupTasks (ready.runner observer) (outside?_eq_none inside)
    (optimization level options) PropertySet.empty
  rw [← tasks] at setup
  constructor
  · intro zero
    rw [run_optimization_zero _ zero] at setup
    rw [run_of_interpretAll setup]
    exact ⟨rfl, describes_recordOps l PropertySet.empty⟩
  · intro pos out success
    generalize outcome : (((optimization level options).interpret (ready.runner observer).runPass
      RunM.withProperties l).run.run setupState).run (recordOps l PropertySet.empty) = left at setup
    obtain ⟨⟨result, rest⟩, q⟩ := left
    rw [run_of_interpretAll setup] at success ⊢
    cases success
    obtain ⟨gates, reduced, numQubits, describes⟩ :=
      run_optimization_pos _ pos (observed_recordOps l) outcome
    exact ⟨gates, reduced, numQubits, describes⟩

/-- Three pairs, one inside of the other, and a gate that stays. -/
def nested : GateList where
  numQubits := 2
  gates := [⟨"h", [0]⟩, ⟨"x", [1]⟩, ⟨"cx", [0, 1]⟩, ⟨"cx", [0, 1]⟩, ⟨"x", [1]⟩, ⟨"h", [0]⟩,
    ⟨"y", [0]⟩]

theorem transpiler_normalises_nested :
    (∀ g ∈ nested.gates, ∀ q ∈ g.qubits, q < nested.numQubits) ∧
      ∃ pm : PassManager Id GateList, transpiler 2 {} = .ok pm ∧
        let run := ({ pm with legacySkip := false, state := RunState.empty }.run none
          nested).run PropertySet.empty
        ∃ out, run.1.1 = .ok out ∧ out.gates = [⟨"y", [0]⟩] ∧ out.gates = reduce nested.gates ∧
          Describes run.2 out := by
  have inside : ∀ g ∈ nested.gates, ∀ q ∈ g.qubits, q < nested.numQubits := by simp [nested]
  have done : ∃ state q, ((({} : Runner Id GateList).interpretAll
      (setupTasks ++ [optimization 2 {}]) nested).run.run RunState.empty).run PropertySet.empty =
        ((.ok { nested with gates := [⟨"y", [0]⟩] }, state), q) := ⟨_, _, rfl⟩
  obtain ⟨state, q, done⟩ := done
  obtain ⟨pm, built, -, tasks⟩ := transpiler_tasks 2 {}
  obtain ⟨same, again, runs⟩ := transpiler_normalises 2 {} inside
  obtain rfl : pm = same := Except.ok.inj (built.symm.trans again)
  rw [← tasks] at done
  let fresh : PassManager Id GateList := { pm with legacySkip := false, state := RunState.empty }
  have run : (fresh.run none nested).run PropertySet.empty =
      ((.ok { nested with gates := [⟨"y", [0]⟩] }, { fresh with state := state }), q) :=
    run_of_interpretAll done
  have success := congrArg (·.1.1) run
  obtain ⟨gates, -, -, describes⟩ := (runs false RunState.empty none).2 (by decide) _ success
  exact ⟨inside, pm, built, _, success, rfl, gates, describes⟩

end QuantumControl.Circuit
