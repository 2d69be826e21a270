import Mathlib.Logic.Function.Defs
import QuantumControl.Proofs.Pulse.Flattening

/-!
# Lineages

Every schedule comes from an empty one by calls, some of which fail, and carries the
identifier of that first schedule: a call may change the start, the children and what is
taken, but never the identifier (`id_of_step`), and so no list of calls does (`id_after`).

A call that places a schedule looks at the identifiers before anything else, at the
children of the component next, and at no time.  So as long as identifiers are drawn apart,
its answer depends on where the two schedules come from and on whether there is anything
in the one that is placed, and it never changes the other one.
-/

namespace QuantumControl.Pulse.Schedule

/-! ## Calls -/

/-- The calls that derive a schedule from another one, with components of any kind. -/
inductive Call where
  | withStart (start : Time)
  | shifted (time : Time)
  | insert (time : Time) (component : Component)
  | append (component : Component)
  | union (component : Component)

/-- The schedule that a call derives, or its fault. -/
def step (s : Schedule) : Call → Except PulseError Schedule
  | .withStart start => s.withStart start
  | .shifted time => s.shifted time
  | .insert time component => s.insert time component
  | .append component => s.append component
  | .union component => s.union component

/-- The schedule after calls one after the other; a call that fails leaves it as it was. -/
def after (s : Schedule) (calls : List Call) : Schedule :=
  calls.foldl (fun s call => (s.commit (s.step call)).2) s

section Identifier

variable {s t : Schedule}

theorem id_of_withStart {start : Time} (h : s.withStart start = .ok t) : t.id = s.id := by
  unfold withStart at h
  split at h
  · cases h
  · cases h
    rfl

theorem id_of_shifted {time : Time} (h : s.shifted time = .ok t) : t.id = s.id := by
  obtain ⟨-, frame, -⟩ := shifted_eq_ok h
  rw [frame]

/-- A placement that passes all checks adds a child and what it takes. -/
theorem id_of_place {time : Time} {i : Instruction} (h : s.place time i = .ok t) : t.id = s.id := by
  unfold place at h
  split at h
  · cases h
  · simp only [bind, Except.bind] at h
    split at h
    · cases h
    · split at h
      · cases h
      · split at h
        · cases h
        · split at h
          · cases h
          · cases h
            rfl

theorem id_of_insert {time : Time} {component : Component}
    (h : s.insert time component = .ok t) : t.id = s.id := by
  cases component with
  | instruction i => exact id_of_place h
  | schedule other => rw [insert_schedule_eq_ok h]

/-- What a call derives has the identifier of what it was derived from. -/
theorem id_of_step {call : Call} (h : s.step call = .ok t) : t.id = s.id := by
  cases call with
  | withStart start => exact id_of_withStart h
  | shifted time => exact id_of_shifted h
  | insert time component => exact id_of_insert h
  | append component => exact id_of_insert (append_eq_ok_iff.1 h)
  | union component => exact id_of_insert h

/-- Calls that succeed or fail stay within a lineage. -/
theorem id_after (s : Schedule) (calls : List Call) : (s.after calls).id = s.id := by
  induction calls generalizing s with
  | nil => rfl
  | cons call calls ih =>
      have kept : (s.commit (s.step call)).2.id = s.id :=
        commit_of (motive := (·.id = s.id)) rfl fun t h => id_of_step h
      exact (ih _).trans kept

end Identifier

/-! ## Schedules as components -/

/-- What all calls answer that place a schedule `b` into `a`, at any time: the answer itself, or its
verdict if they place `b` in place, which leaves `a` as it is. -/
structure Answers (a b : Schedule) (answer : Except PulseError Schedule) : Prop where
  insert (time : Time) : a.insert time (.schedule b) = answer
  append : a.append (.schedule b) = answer
  union : a.union (.schedule b) = answer
  insertInPlace (time : Time) :
    a.insertInPlace time (.schedule b) = (answer.map fun _ => (), a)
  appendInPlace : a.appendInPlace (.schedule b) = (answer.map fun _ => (), a)

section Answers

variable {a b : Schedule}

/-- Placing a schedule in place changes nothing, whether it is accepted or refused. -/
theorem commit_insert_schedule (time : Time) :
    a.commit (a.insert time (.schedule b)) =
      ((a.insert time (.schedule b)).map fun _ => (), a) := by
  cases placed : a.insert time (.schedule b) with
  | ok t =>
      obtain rfl := insert_schedule_eq_ok placed
      rfl
  | error fault => rfl

/-- All calls answer as an insertion does, if this does not depend on the time and is no
conflict. -/
theorem answers_of_insert {answer : Except PulseError Schedule}
    (inserts : ∀ time, a.insert time (.schedule b) = answer)
    (clear : ∀ component time, answer ≠ .error (.insertConflict component time)) :
    a.Answers b answer := by
  have appends : a.append (.schedule b) = answer := by
    rw [append, inserts]
    split
    · exact absurd rfl (clear _ _)
    · rfl
  have inPlace (time : Time) := commit_insert_schedule (a := a) (b := b) time
  simp only [inserts] at inPlace
  refine ⟨inserts, appends, inserts _, fun time => ?_, ?_⟩
  · rw [insertInPlace, inserts, inPlace time]
  · rw [appendInPlace, appends, inPlace Time.zero]

/-- A schedule of the same lineage is refused, before anything else is looked at. -/
theorem answers_of_same (same : b.id = a.id) : a.Answers b (.error .selfInsertion) :=
  answers_of_insert (fun _ => if_pos same) fun _ _ conflict => nomatch conflict

theorem answers_of_nonempty (apart : b.id ≠ a.id) (full : b.children ≠ []) :
    a.Answers b (.error .nestedSchedule) := by
  refine answers_of_insert (fun _ => ?_) fun _ _ conflict => nomatch conflict
  have nonempty : (!b.isEmpty) = true := by simpa [isEmpty] using full
  exact (if_neg apart).trans (if_pos nonempty)

theorem answers_of_empty (apart : b.id ≠ a.id) (empty : b.children = []) :
    a.Answers b (.ok a) := by
  refine answers_of_insert (fun _ => ?_) fun _ _ conflict => nomatch conflict
  have nothing : ¬ (!b.isEmpty) = true := by simpa [isEmpty] using empty
  exact (if_neg apart).trans (if_neg nothing)

end Answers

/-- With identifiers that are drawn apart, whatever was called on two schedules since: each refuses
the other as itself if both come from one draw, whether it is empty or not.  If they come from two,
one is refused as nested if it has children, and else is accepted, and then the answer is the
schedule that it was placed into.  No such call changes that schedule. -/
theorem answers_of_draws {n : Nat} {draws : Fin n → ScheduleId} (apart : Function.Injective draws)
    (j k : Fin n) (name other : Option String) (calls others : List Call) :
    let a := (new (draws j) name).after calls
    let b := (new (draws k) other).after others
    (j = k → a.Answers b (.error .selfInsertion)) ∧
      (j ≠ k → b.children ≠ [] → a.Answers b (.error .nestedSchedule)) ∧
      (j ≠ k → b.children = [] → a.Answers b (.ok a)) := by
  intro a b
  have ida : a.id = draws j := id_after _ calls
  have idb : b.id = draws k := id_after _ others
  have same : b.id = a.id ↔ j = k := by
    rw [ida, idb, apart.eq_iff, eq_comm]
  refine ⟨fun one => answers_of_same (same.2 one), fun two => ?_, fun two => ?_⟩
  · exact answers_of_nonempty (mt same.1 two)
  · exact answers_of_empty (mt same.1 two)

/-- A schedule with a readout that starts before zero, an empty one of the same lineage on which two
calls have failed, and an empty one of another lineage. -/
theorem answers_of_draws_readout :
    ∃ i, Instruction.acquire { duration := 16 } [0] [0] [] = .ok i ∧
      let draws : Fin 2 → ScheduleId := fun k => ⟨⟨BitVec.ofNat 128 k.val⟩⟩
      let early : Time := ⟨-20, by decide, by decide⟩
      let a := (new (draws 0)).after [.append (.instruction i), .withStart early]
      let b := (new (draws 0)).after [.shifted early, .union (.schedule (new (draws 0)))]
      let c := (new (draws 1)).after [.withStart early]
      Function.Injective draws ∧ a.children ≠ [] ∧ b.children = [] ∧ c.children = [] ∧
        a.Answers b (.error .selfInsertion) ∧ b.Answers a (.error .selfInsertion) ∧
        c.Answers a (.error .nestedSchedule) ∧ a.Answers c (.ok a) := by
  refine ⟨_, rfl, ?_⟩
  intro draws early a b c
  have apart : Function.Injective draws := by
    intro j k
    revert j k
    decide
  have full : a.children ≠ [] := by
    have nonempty : a.isEmpty = false := by decide
    simpa [isEmpty] using nonempty
  have empty : c.children = [] := rfl
  have placed (j k : Fin 2) := answers_of_draws apart j k none none
  refine ⟨apart, full, rfl, empty, (placed 0 0 _ _).1 rfl, (placed 0 0 _ _).1 rfl, ?_, ?_⟩
  · exact (placed 1 0 _ _).2.1 (by decide) full
  · exact (placed 0 1 _ _).2.2 (by decide) empty

end QuantumControl.Pulse.Schedule
