import Mathlib.Order.Interval.Set.Nat
import QuantumControl.Proofs.Circuit.Transpiler

/-!
# How many sweeps the transpiler needs

Swept again and again, a gate list gets shorter for a while and then stays what it is
(`shrinks_iff`), and as a sweep removes gates in pairs this takes at most half as many
sweeps as there are gates.

The loop makes these sweeps and one more, after which it sees the size for the second
time; a list that never gets shorter takes two sweeps, as one observation is nothing to
compare with.  `Takes` says what becomes of a loop by the sweeps that it needs and those
that it may make.
-/

namespace QuantumControl.Circuit

open Pipeline

/-! ## Sweep after sweep -/

/-- The sweep after the first `n` ones shortens what they leave. -/
def Shrinks (gates : List Gate) (n : Nat) : Prop :=
  (cancelPairs^[n + 1] gates).length < (cancelPairs^[n] gates).length

/-- The number of sweeps until one does not shorten the list. -/
def shrinkingSweeps (gates : List Gate) : Nat :=
  if (cancelPairs gates).length < gates.length then shrinkingSweeps (cancelPairs gates) + 1
  else 0
termination_by gates.length

theorem shrinkingSweeps_of_shorter {gates : List Gate}
    (shorter : (cancelPairs gates).length < gates.length) :
    shrinkingSweeps gates = shrinkingSweeps (cancelPairs gates) + 1 := by
  rw [shrinkingSweeps, if_pos shorter]

theorem shrinkingSweeps_of_same {gates : List Gate}
    (same : (cancelPairs gates).length = gates.length) : shrinkingSweeps gates = 0 := by
  rw [shrinkingSweeps, if_neg (Nat.not_lt_of_le same.ge)]

theorem shorter_or_same (gates : List Gate) :
    (cancelPairs gates).length < gates.length ∨ (cancelPairs gates).length = gates.length :=
  Nat.lt_or_eq_of_le (length_cancelPairs_le gates)

/-- The sweeps that shorten a list are the first ones. -/
theorem shrinks_iff {gates : List Gate} {n : Nat} :
    Shrinks gates n ↔ n < shrinkingSweeps gates := by
  fun_induction shrinkingSweeps gates generalizing n with
  | case1 gates shorter ih =>
      cases n with
      | zero => exact iff_of_true shorter (Nat.succ_pos _)
      | succ n => exact ih.trans Nat.succ_lt_succ_iff.symm
  | case2 gates notShorter =>
      have same := (shorter_or_same gates).resolve_left notShorter
      have fixed : cancelPairs^[n] gates = gates :=
        Function.iterate_fixed (cancelPairs_of_same same) n
      refine iff_of_false ?_ (Nat.not_lt_zero n)
      rw [Shrinks, Function.iterate_succ_apply', fixed]
      exact notShorter

theorem ncard_shrinks (gates : List Gate) :
    {n | Shrinks gates n}.ncard = shrinkingSweeps gates := by
  have first : {n | Shrinks gates n} = Set.Iio (shrinkingSweeps gates) :=
    Set.ext fun n => shrinks_iff
  rw [first, Set.ncard_Iio_nat]

/-- Each sweep that shortens a list takes two gates away, or more. -/
theorem two_mul_shrinkingSweeps_le (gates : List Gate) :
    2 * shrinkingSweeps gates ≤ gates.length := by
  fun_induction shrinkingSweeps gates with
  | case1 gates shorter ih =>
      obtain ⟨pairs, length⟩ := exists_length_cancelPairs gates
      omega
  | case2 gates notShorter => exact Nat.zero_le _

/-! ## The loop -/

theorem count_sweptState (state : RunState) : (sweptState state).count = state.count + 3 := rfl

/-- What becomes of a loop that needs some sweeps and may make at most `left`: it is done after
the ones that it needs, or fails after all that it may make. -/
structure Takes (ceiling left need : Nat) (state : RunState) (run : Ending GateList) : Prop where
  done : need ≤ left → (∃ out, run.1.1 = .ok out) ∧ run.1.2.count = state.count + 3 * need ∧
    run.2.get? (fixedPointFlag "size") = some (.bool true)
  stuck : left < need → run.1.1 = .error (.maxIterationReached ceiling) ∧
    run.1.2.count = state.count + 3 * left

/-- One sweep more in front. -/
theorem Takes.sweep {ceiling left need : Nat} {state : RunState} {run : Ending GateList}
    (h : Takes ceiling left need (sweptState state) run) :
    Takes ceiling (left + 1) (need + 1) state run where
  done enough := by
    obtain ⟨success, count, flag⟩ := h.done (Nat.le_of_succ_le_succ enough)
    refine ⟨success, ?_, flag⟩
    rw [count, count_sweptState, Nat.mul_succ]
    omega
  stuck short := by
    obtain ⟨failure, count⟩ := h.stuck (Nat.lt_of_succ_lt_succ short)
    refine ⟨failure, ?_⟩
    rw [count, count_sweptState, Nat.mul_succ]
    omega

theorem takes_of_zero {ceiling need : Nat} {state : RunState} {p : PropertySet} (pos : 0 < need) :
    Takes ceiling 0 need state ((.error (.maxIterationReached ceiling), state), p) where
  done enough := absurd enough (Nat.not_le_of_lt pos)
  stuck _ := ⟨rfl, rfl⟩

section Loop

variable {ceiling : Nat} {body : GateList → RunM Id GateList}
  (sweeps : ∀ l state p, ((body l).run.run state).run p =
    ((.ok (swept l), sweptState state), sweptProperties l p))

/-- The loop with at most `left` sweeps to go. -/
abbrev loopEnding (ceiling : Nat) (body : GateList → RunM Id GateList) (left : Nat)
    (l : GateList) (state : RunState) (p : PropertySet) : Ending GateList :=
  ((passes ceiling (RunM.withProperties fun p => pure (sizeChanges p)) body left
    l).run.run state).run p

include sweeps

/-- A sweep, and then more of them or not. -/
theorem loopEnding_succ (left : Nat) (l : GateList) (state : RunState) (p : PropertySet) :
    loopEnding ceiling body (left + 1) l state p =
      if sizeChanges (sweptProperties l p) then
        loopEnding ceiling body left (swept l) (sweptState state) (sweptProperties l p)
      else ((.ok (swept l), sweptState state), sweptProperties l p) := by
  rw [loopEnding, passes, RunM.run_bind_of_ok (sweeps l state p),
    RunM.run_bind_of_ok (RunM.run_withProperties_eq _)]
  show ((if sizeChanges (sweptProperties l p) then _ else _ : RunM Id GateList).run.run
    (sweptState state)).run (sweptProperties l p) = _
  split <;> rfl

/-- After an observation the loop takes the sweeps that shorten the list and one more. -/
theorem loop_takes (left : Nat) {l : GateList} (state : RunState) {p : PropertySet}
    (previous : p.get? (previousKey "size") = some (.int l.size)) :
    Takes ceiling left (shrinkingSweeps l.gates + 1) state
      (loopEnding ceiling body left l state p) := by
  induction left generalizing l state p with
  | zero => exact takes_of_zero (Nat.succ_pos _)
  | succ left ih =>
      have changes := sizeChanges_sweptProperties l p
      have flag := flag_sweptProperties l p
      rw [previous, Option.some_beq_some, Json.beq_int] at changes flag
      rw [loopEnding_succ sweeps, changes]
      rcases shorter_or_same l.gates with shorter | same
      · have differs : ¬ ((swept l).size : Int) = l.size := fun e =>
          absurd (Int.ofNat.inj e) shorter.ne
        rw [beq_false_of_ne differs, shrinkingSweeps_of_shorter shorter]
        exact (ih _ (previous_sweptProperties l p)).sweep
      · have equal : ((swept l).size : Int) = l.size := congrArg Int.ofNat same
        rw [beq_iff_eq.2 equal, shrinkingSweeps_of_same same]
        rw [beq_iff_eq.2 equal] at flag
        refine ⟨fun _ => ⟨⟨_, rfl⟩, rfl, flag⟩, fun short => ?_⟩
        omega

/-- The first sweep has no observation to be compared with. -/
theorem loop_takes_first (left : Nat) (l : GateList) (state : RunState) {p : PropertySet}
    (first : p.get? (previousKey "size") = none) :
    Takes ceiling left (max (shrinkingSweeps l.gates) 1 + 1) state
      (loopEnding ceiling body left l state p) := by
  cases left with
  | zero => exact takes_of_zero (Nat.succ_pos _)
  | succ left =>
      have changes : sizeChanges (sweptProperties l p) = true := by
        rw [sizeChanges_sweptProperties, first]
        rfl
      have rest : Takes ceiling (left + 1) _ state _ :=
        (loop_takes sweeps left (sweptState state) (previous_sweptProperties l p)).sweep
      have need : max (shrinkingSweeps l.gates) 1 = shrinkingSweeps (swept l).gates + 1 := by
        rcases shorter_or_same l.gates with shorter | same
        · rw [shrinkingSweeps_of_shorter shorter]
          exact Nat.max_eq_left (Nat.succ_pos _)
        · have kept : (swept l).gates = l.gates := cancelPairs_of_same same
          rw [kept, shrinkingSweeps_of_same same]
          rfl
      rw [loopEnding_succ sweeps, changes, need]
      exact rest

end Loop

/-! ## The whole pipeline -/

/-- A run above level zero is the setup and then the loop, from no observation. -/
theorem transpiler_takes {level : UInt8} (pos : 1 ≤ level) (options : ControllerOptions)
    {l : GateList} (inside : ∀ g ∈ l.gates, ∀ q ∈ g.qubits, q < l.numQubits) :
    ∃ pm, transpiler level options = .ok pm ∧
      ∀ skip before observer,
        let run := (({ pm with legacySkip := skip, state := before } :
          PassManager Id GateList).run observer l).run PropertySet.empty
        Takes options.maxIteration options.maxIteration (max (shrinkingSweeps l.gates) 1 + 1)
          setupState ((run.1.1, run.1.2.state), run.2) := by
  obtain ⟨pm, built, -, tasks⟩ := transpiler_tasks level options
  refine ⟨pm, built, fun skip before observer => ?_⟩
  let r := ({ pm with legacySkip := skip, state := before } : PassManager Id GateList).runner
    observer
  have first : (recordOps l PropertySet.empty).get? (previousKey "size") = none :=
    previous_recordOps l PropertySet.empty
  have takes : Takes options.maxIteration options.maxIteration _ setupState _ :=
    loop_takes_first (run_optimizeTasks r) options.maxIteration l setupState first
  have setup := run_setupTasks r (outside?_eq_none inside) (optimization level options)
    PropertySet.empty
  rw [← tasks, run_optimization r pos] at setup
  rw [run_of_interpretAll setup]
  exact takes

/-- Above level zero, whatever the ceiling, the way of skipping and the observer: let `k` be the
number of sweeps that shorten the list.  These are the first `k` ones, and at most half as many as
there are gates.  A run from no properties needs `max k 1 + 1` sweeps; it succeeds if the ceiling
allows for them, after the two passes of the setup and three for each sweep, with the size flagged
as fixed; and otherwise it fails at the ceiling, after as many sweeps. -/
theorem transpiler_converges {level : UInt8} (pos : 1 ≤ level) (options : ControllerOptions)
    {l : GateList} (inside : ∀ g ∈ l.gates, ∀ q ∈ g.qubits, q < l.numQubits) :
    let k := {n | Shrinks l.gates n}.ncard
    let need := max k 1 + 1
    (∀ n, Shrinks l.gates n ↔ n < k) ∧ k ≤ l.size / 2 ∧
      ∃ pm, transpiler level options = .ok pm ∧
        ∀ skip before observer,
          let run := (({ pm with legacySkip := skip, state := before } :
            PassManager Id GateList).run observer l).run PropertySet.empty
          ((∃ out, run.1.1 = .ok out) ↔ need ≤ options.maxIteration) ∧
            (need ≤ options.maxIteration → run.1.2.state.count = 2 + 3 * need ∧
              run.2.get? "size_fixed_point" = some (.bool true)) ∧
            (options.maxIteration < need →
              run.1.1 = .error (.maxIterationReached options.maxIteration) ∧
                run.1.2.state.count = 2 + 3 * options.maxIteration) ∧
            (l.size / 2 + 2 ≤ options.maxIteration → ∃ out, run.1.1 = .ok out) := by
  intro k need
  have number : k = shrinkingSweeps l.gates := ncard_shrinks l.gates
  have half : k ≤ l.size / 2 := by
    have := two_mul_shrinkingSweeps_le l.gates
    rw [number, GateList.size]
    omega
  obtain ⟨pm, built, runs⟩ := transpiler_takes pos options inside
  refine ⟨fun n => number ▸ shrinks_iff, half, pm, built, fun skip before observer => ?_⟩
  have takes := number ▸ runs skip before observer
  have stops := fun enough => (takes.done enough).1
  refine ⟨⟨?_, stops⟩, fun enough => (takes.done enough).2, takes.stuck, fun enough => ?_⟩
  · rintro ⟨out, success⟩
    by_contra short
    obtain ⟨failure, -⟩ := takes.stuck (Nat.lt_of_not_le short)
    cases failure.symm.trans success
  · exact stops (by omega)

/-- Two sweeps take the inner pairs away, and a third one the outer pair. -/
theorem transpiler_converges_nested :
    (1 : UInt8) ≤ 2 ∧ (∀ g ∈ nested.gates, ∀ q ∈ g.qubits, q < nested.numQubits) ∧
      {n | Shrinks nested.gates n}.ncard = 3 ∧
      (∃ pm : PassManager Id GateList, transpiler 2 { maxIteration := 4 } = .ok pm ∧
        let run := ({ pm with legacySkip := false, state := .empty }.run none nested).run .empty
        (∃ out, run.1.1 = .ok out) ∧ run.1.2.state.count = 14) ∧
      ∃ pm : PassManager Id GateList, transpiler 2 { maxIteration := 3 } = .ok pm ∧
        let run := ({ pm with legacySkip := false, state := .empty }.run none nested).run .empty
        run.1.1 = .error (.maxIterationReached 3) ∧ run.1.2.state.count = 11 := by
  have inside : ∀ g ∈ nested.gates, ∀ q ∈ g.qubits, q < nested.numQubits := by simp [nested]
  have three : {n | Shrinks nested.gates n}.ncard = 3 := by
    rw [ncard_shrinks]
    simp [shrinkingSweeps, cancelPairs, nested, Gate.isSelfInverse, Gate.involutions]
  obtain ⟨-, -, pm, built, runs⟩ := transpiler_converges (by decide : (1 : UInt8) ≤ 2)
    { maxIteration := 4 } inside
  obtain ⟨-, -, pm', built', runs'⟩ := transpiler_converges (by decide : (1 : UInt8) ≤ 2)
    { maxIteration := 3 } inside
  rw [three] at runs runs'
  obtain ⟨succeeds, done, -, -⟩ := runs false .empty none
  obtain ⟨-, -, stuck, -⟩ := runs' false .empty none
  refine ⟨by decide, inside, three, ⟨pm, built, succeeds.2 (by decide), ?_⟩, pm', built', ?_⟩
  · exact (done (by decide)).1
  · exact stuck (by decide)

end QuantumControl.Circuit
