import QuantumControl.Proofs.Circuit.Convergence

/-!
# Runs of the transpiler on one property set

The size that a run observed last stays in the property set, and the next run on the same
set compares its first sweep with it.  The number of gates that an earlier run ended with
says nothing about the present list; where the first sweep happens to leave as many, the
loop takes the size for stable and stops after this one sweep.

This is the only way in which an earlier run shows.  From the second sweep on the last
observed size is that of the current list, which is the invariant of a run by itself
(`passes_normalises`).  So a later run ends with pairs if and only if its first sweep leaves
pairs and as many gates as were observed before it.
-/

namespace QuantumControl.Circuit

open Pipeline

/-! ## The loop from any observation -/

/-- The first sweep of a list leaves as many gates as were observed before it. -/
def Stale (p : PropertySet) (l : GateList) : Prop :=
  p.get? (previousKey "size") = some (.int (swept l).size)

theorem sizeChanges_sweptProperties_iff (l : GateList) (p : PropertySet) :
    sizeChanges (sweptProperties l p) = false ↔ Stale p l := by
  rw [sizeChanges_sweptProperties, Bool.not_eq_false', Stale]
  cases p.get? (previousKey "size") with
  | none => exact ⟨nofun, nofun⟩
  | some value => rw [Option.some_beq_some, Json.int_beq_iff, Option.some_inj]

/-- Counting a list makes no observation stale. -/
theorem stale_recordOps (l : GateList) (p : PropertySet) : Stale (recordOps l p) l ↔ Stale p l := by
  rw [Stale, Stale, previous_recordOps]

section Loop

variable {ceiling left : Nat} {body : GateList → RunM Id GateList}
  (sweeps : ∀ l state p, ((body l).run.run state).run p =
    ((.ok (swept l), sweptState state), sweptProperties l p))
  {l out : GateList} {state rest : RunState} {p q : PropertySet}
  (h : loopEnding ceiling body left l state p = ((.ok out, rest), q))

include sweeps h

/-- A loop that ends has observed the size of what it leaves. -/
theorem loop_observes : q.get? (previousKey "size") = some (.int out.size) := by
  induction left generalizing l state p with
  | zero => cases h
  | succ left ih =>
      rw [loopEnding_succ sweeps] at h
      split at h
      · exact ih h
      · cases h
        exact previous_sweptProperties l p

/-- A loop that ends leaves no pair, unless a stale observation ends it at a first sweep that
leaves one. -/
theorem loop_reduced_iff : Reduced out.gates ↔ ¬ Stale p l ∨ Reduced (swept l).gates := by
  cases left with
  | zero => cases h
  | succ left =>
      rw [loopEnding_succ sweeps] at h
      by_cases stale : Stale p l
      · rw [(sizeChanges_sweptProperties_iff l p).2 stale] at h
        cases h
        exact ⟨.inr, fun reduced => reduced.resolve_left fun fresh => fresh stale⟩
      · rw [Bool.eq_true_of_not_eq_false (mt (sizeChanges_sweptProperties_iff l p).1 stale)] at h
        have normal := passes_normalises sweeps (observed_sweptProperties l p) h
        exact iff_of_true normal.reduced (.inl stale)

end Loop

/-! ## Runs from any properties -/

/-- The setup refuses a list with a gate outside the register, and the loop is not reached. -/
theorem run_setupTasks_of_outside (r : Runner Id GateList) {l : GateList} {found : Gate × UInt32}
    (h : l.outside? = some found) (task : Task Id GateList) (p : PropertySet) :
    ∃ error, ((r.interpretAll (setupTasks ++ [task]) l).run.run RunState.empty).run p =
      ((.error error, RunState.empty), p) := by
  obtain ⟨g, q⟩ := found
  have refused : ∃ error, ((checkQubits (m := Id) ⟨1⟩).run l).run.run p = (.error error, p) := by
    simp only [checkQubits, Pass.analysis, h]
    exact ⟨_, rfl⟩
  obtain ⟨error, refused⟩ := refused
  have check := r.ending_runPass (checkQubits ⟨1⟩) l RunState.empty p
  rw [Pass.outcome, refused, if_neg (by simp [RunState.isValid, RunState.empty])] at check
  refine ⟨error, ?_⟩
  rw [setupTasks, Runner.interpretAll, List.cons_append, Task.interpretAll, Task.interpret]
  exact (RunM.ending_bind _ _ _ _).trans (by rw [check])

/-- A run above level zero that succeeds has gone through the loop. -/
theorem loopEnding_of_run {level : UInt8} (pos : 1 ≤ level) {options : ControllerOptions}
    {pm : PassManager Id GateList} (tasks : pm.tasks = setupTasks ++ [optimization level options])
    (observer : Option (Observation Id GateList → Id Unit)) {l out : GateList} {p : PropertySet}
    (success : ((pm.run observer l).run p).1.1 = .ok out) :
    ∃ rest, loopEnding options.maxIteration ((pm.runner observer).interpretAll optimizeTasks)
      options.maxIteration l setupState (recordOps l p) =
        ((.ok out, rest), ((pm.run observer l).run p).2) := by
  cases outside : l.outside? with
  | some found =>
      obtain ⟨error, setup⟩ := run_setupTasks_of_outside (pm.runner observer) outside
        (optimization level options) p
      rw [← tasks] at setup
      rw [run_of_interpretAll setup] at success
      cases success
  | none =>
      have setup := run_setupTasks (pm.runner observer) outside (optimization level options) p
      rw [← tasks, run_optimization _ pos] at setup
      generalize ending : loopEnding options.maxIteration
        ((pm.runner observer).interpretAll optimizeTasks) options.maxIteration l setupState
          (recordOps l p) = left
      obtain ⟨⟨result, rest⟩, q⟩ := left
      have run := run_of_interpretAll (setup.trans ending)
      rw [run] at success ⊢
      cases success
      exact ⟨rest, rfl⟩

/-- On stale properties a run leaves what one sweep leaves. -/
theorem run_of_stale {level : UInt8} (pos : 1 ≤ level) {options : ControllerOptions}
    (may : 1 ≤ options.maxIteration) {pm : PassManager Id GateList}
    (tasks : pm.tasks = setupTasks ++ [optimization level options])
    (observer : Option (Observation Id GateList → Id Unit)) {l : GateList}
    (inside : l.outside? = none) {p : PropertySet} (stale : Stale p l) :
    ((pm.run observer l).run p).1.1 = .ok (swept l) := by
  have setup := run_setupTasks (pm.runner observer) inside (optimization level options) p
  obtain ⟨left, more⟩ := Nat.exists_eq_add_of_le' may
  have once : loopEnding options.maxIteration _ (left + 1) l setupState (recordOps l p) = _ :=
    loopEnding_succ (run_optimizeTasks (pm.runner observer)) left l setupState (recordOps l p)
  rw [(sizeChanges_sweptProperties_iff l _).2 ((stale_recordOps l p).2 stale)] at once
  rw [← tasks, run_optimization _ pos, more] at setup
  rw [more] at once
  rw [run_of_interpretAll (setup.trans once)]

/-- Above level zero, on whatever properties, with whatever options, ways of skipping and observers:
after a run that succeeds, the properties are stale for a list if a sweep of it leaves as many
gates as the run did.  The next run on them, if it succeeds, leaves no pair if and only if they
are not stale for its list, or the first sweep of its list leaves none. -/
theorem second_run_reduced_iff {level : UInt8} (pos : 1 ≤ level) (options : ControllerOptions) :
    ∃ pm : PassManager Id GateList, transpiler level options = .ok pm ∧
      ∀ skip before observer observer' (p : PropertySet) (first second : GateList),
        let run := (({ pm with legacySkip := skip, state := before } : PassManager Id GateList).run
          observer first).run p
        let next := (run.1.2.run observer' second).run run.2
        (∀ out, run.1.1 = .ok out → (Stale run.2 second ↔ out.size = (swept second).size)) ∧
          ∀ out, next.1.1 = .ok out →
            (Reduced out.gates ↔ ¬ Stale run.2 second ∨ Reduced (swept second).gates) := by
  obtain ⟨pm, built, -, tasks⟩ := transpiler_tasks level options
  refine ⟨pm, built, fun skip before observer observer' p first second => ?_⟩
  let ready : PassManager Id GateList := { pm with legacySkip := skip, state := before }
  let run := (ready.run observer first).run p
  have kept : ready.tasks = _ ∧ run.1.2.tasks = _ := ⟨tasks, tasks⟩
  constructor
  · intro out success
    obtain ⟨rest, ending⟩ := loopEnding_of_run pos kept.1 observer success
    have observed := loop_observes (run_optimizeTasks (ready.runner observer)) ending
    rw [Stale, observed, Option.some_inj, Json.int.injEq]
    exact Int.ofNat_inj
  · intro out success
    obtain ⟨rest, ending⟩ := loopEnding_of_run pos kept.2 observer' success
    have reduced := loop_reduced_iff (run_optimizeTasks (run.1.2.runner observer')) ending
    rw [stale_recordOps] at reduced
    exact reduced

/-! ## Two gates that stay, and then pairs -/

/-- Two gates that stay. -/
def phases : GateList := ⟨1, [⟨"t", [0]⟩, ⟨"t", [0]⟩]⟩

/-- Two pairs, one inside of the other, of which a sweep leaves the outer one. -/
def echo : GateList := ⟨1, [⟨"h", [0]⟩, ⟨"x", [0]⟩, ⟨"x", [0]⟩, ⟨"h", [0]⟩]⟩

/-- The properties that a run on `phases` leaves. -/
def phasesProperties : PropertySet :=
  sweptProperties phases (sweptProperties phases (recordOps phases .empty))

/-- A manager that skips nothing runs its tasks, without an observer, as a runner without settings
does. -/
theorem runner_eq {pm : PassManager Id GateList} (full : pm.legacySkip = false) :
    pm.runner none = {} := by
  rw [PassManager.runner, full]

/-- The transpiler at level one stops with `phases` after two sweeps. -/
theorem transpiler_phases :
    ∃ pm : PassManager Id GateList, transpiler 1 {} = .ok pm ∧ pm.legacySkip = false ∧
      pm.tasks = setupTasks ++ [optimization 1 {}] ∧ ∃ state,
        (pm.run none phases).run .empty = ((.ok phases, { pm with state }), phasesProperties) := by
  have done : ∃ state, ((({} : Runner Id GateList).interpretAll (setupTasks ++ [optimization 1 {}])
      phases).run.run RunState.empty).run .empty = ((.ok phases, state), phasesProperties) :=
    ⟨_, rfl⟩
  obtain ⟨state, done⟩ := done
  obtain ⟨pm, built, full, tasks⟩ := transpiler_tasks 1 {}
  refine ⟨pm, built, full, tasks, state, run_of_interpretAll ?_⟩
  rw [runner_eq full, tasks]
  exact done

/-- A sweep of `nested` leaves five gates, not two, and the run goes on to its normal form. -/
theorem second_run_reduced_nested :
    (1 : UInt8) ≤ 1 ∧ ∃ pm : PassManager Id GateList, transpiler 1 {} = .ok pm ∧
      let run := (pm.run none phases).run .empty
      let next := (run.1.2.run none nested).run run.2
      run.1.1 = .ok phases ∧ ¬ Stale run.2 nested ∧
        ∃ out, next.1.1 = .ok out ∧ out.gates = [⟨"y", [0]⟩] ∧ Reduced out.gates := by
  have done : ∃ state q, ((({} : Runner Id GateList).interpretAll
      (setupTasks ++ [optimization 1 {}]) nested).run.run RunState.empty).run phasesProperties =
        ((.ok { nested with gates := [⟨"y", [0]⟩] }, state), q) := ⟨_, _, rfl⟩
  obtain ⟨state, q, done⟩ := done
  obtain ⟨pm, built, full, tasks, rest, run⟩ := transpiler_phases
  obtain ⟨same, again, runs⟩ := second_run_reduced_iff (by decide : (1 : UInt8) ≤ 1) {}
  obtain rfl : pm = same := Except.ok.inj (built.symm.trans again)
  obtain ⟨stale, reduced⟩ := runs pm.legacySkip pm.state none none .empty phases nested
  have fresh := mt (stale phases (congrArg (·.1.1) run)).1 (by decide)
  have first : ((pm.run none phases).run .empty).1.1 = .ok phases := by rw [run]
  have success : (((pm.run none phases).run .empty).1.2.run none nested).run
      ((pm.run none phases).run .empty).2 = ((.ok { nested with gates := [⟨"y", [0]⟩] },
        { pm with state }), q) := by
    rw [run]
    have skips : ({ pm with state := rest } : PassManager Id GateList).runner none = {} :=
      runner_eq full
    exact run_of_interpretAll (by rw [skips, tasks]; exact done)
  have next := congrArg (·.1.1) success
  exact ⟨by decide, pm, built, first, fresh, _, next, rfl, (reduced _ next).2 (.inl fresh)⟩

/-- The outer pair of `echo` is left, as many gates as `phases` has. -/
theorem second_run_keeps_pair :
    ∃ pm : PassManager Id GateList, transpiler 1 {} = .ok pm ∧
      let run := (pm.run none phases).run .empty
      let next := (run.1.2.run none echo).run run.2
      ∃ out, next.1.1 = .ok out ∧ ¬ Reduced out.gates := by
  obtain ⟨pm, built, -, tasks, rest, run⟩ := transpiler_phases
  refine ⟨pm, built, swept echo, ?_, by decide⟩
  rw [run]
  exact run_of_stale (by decide) (by decide) tasks none rfl (previous_sweptProperties _ _)

end QuantumControl.Circuit
