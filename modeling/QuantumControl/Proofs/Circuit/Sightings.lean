import Mathlib.Data.List.ReduceOption
import QuantumControl.Circuit.Pass

/-!
# What a fixed point pass compares

A fixed point pass looks at one property and keeps in the property set what it saw.  Only a
property that is present is kept: a look at an absent one flags it as not fixed, and leaves
what was kept before.  So over a history of looks and of anything that other tasks do between
them, what is kept is the last value that was seen at all (`previous_play`), and a look
compares with that one.

It is the value of the look just before, unless the property was absent then.  A property
that was removed, and is back with its old value, is flagged as fixed, though it has changed
twice since it was last seen.
-/

namespace QuantumControl.Circuit

open Pipeline

/-! ## Keys -/

section Keys

variable (property : String)

theorem length_fixedPointFlag : (fixedPointFlag property).length = property.length + 12 := by
  rw [fixedPointFlag, String.length_append]
  rfl

theorem length_previousKey : (previousKey property).length = property.length + 10 := by
  rw [previousKey, String.length_append, String.length_append, Nat.add_comm "_".length]
  rfl

theorem fixedPointFlag_ne_previousKey : fixedPointFlag property ≠ previousKey property :=
  ne_of_apply_ne String.length (by rw [length_fixedPointFlag, length_previousKey]; omega)

theorem ne_fixedPointFlag : property ≠ fixedPointFlag property :=
  ne_of_apply_ne String.length (by rw [length_fixedPointFlag]; omega)

theorem ne_previousKey : property ≠ previousKey property :=
  ne_of_apply_ne String.length (by rw [length_previousKey]; omega)

end Keys

/-! ## One look -/

/-- Observing a property that is present flags it as fixed if it was the same before. -/
theorem observeProperty_of_some {property : String} {p : PropertySet} {value : Json}
    (h : p.get? property = some value) :
    observeProperty property p =
      (p.set (fixedPointFlag property)
        (.bool (some value == p.get? (previousKey property)))).set
          (previousKey property) value := by
  rw [observeProperty, h]
  rfl

section Look

variable (property : String) (p : PropertySet)

/-- A look keeps what it sees, and else what was kept before. -/
theorem previous_observeProperty :
    (observeProperty property p).get? (previousKey property) =
      (p.get? property).or (p.get? (previousKey property)) := by
  cases current : p.get? property with
  | some value => simp [observeProperty_of_some current]
  | none => simp [observeProperty, current, (fixedPointFlag_ne_previousKey property).symm]

/-- A property is flagged as fixed if it is present and was kept with an equal value. -/
theorem flag_observeProperty :
    (observeProperty property p).get? (fixedPointFlag property) =
      some (.bool ((p.get? property).isSome &&
        p.get? property == p.get? (previousKey property))) := by
  cases current : p.get? property with
  | some value =>
      simp [observeProperty_of_some current, fixedPointFlag_ne_previousKey]
  | none => simp [observeProperty, current]

end Look

/-- A pass that watches a property looks at it once, and leaves the gates alone. -/
theorem run_fixedPoint {m : Type → Type} [Monad m] [LawfulMonad m] (id : TaskId)
    (property : String) (l : GateList) (p : PropertySet) :
    (((fixedPoint (m := m) id property).run l).run.run p) =
      pure (.ok l, observeProperty property p) := by
  have run : (fixedPoint (m := m) id property).run l =
      ExceptT.lift (modify (observeProperty property)) >>= fun _ => pure l := rfl
  rw [run, ExceptT.run_bind_lift, StateT.run_bind, StateT.run_modify, pure_bind]
  rfl

/-! ## Histories -/

/-- What other tasks do between two looks at a property: anything that leaves alone what the looks
keep and write. -/
structure Change (property : String) where
  apply : PropertySet → PropertySet
  previous : ∀ p, (apply p).get? (previousKey property) = p.get? (previousKey property)
  flag : ∀ p, (apply p).get? (fixedPointFlag property) = p.get? (fixedPointFlag property)

namespace Change

variable (property : String)

/-- Write the property. -/
def write (value : Json) : Change property where
  apply p := p.set property value
  previous p := by simp [(ne_previousKey property).symm]
  flag p := by simp [(ne_fixedPointFlag property).symm]

/-- Remove the property. -/
def remove : Change property where
  apply p := p.remove property
  previous p := by simp [(ne_previousKey property).symm]
  flag p := by simp [(ne_fixedPointFlag property).symm]

end Change

/-- What happens to a property set. -/
inductive Event (property : String) where
  /-- A fixed point pass looks at the property. -/
  | look
  | change (c : Change property)

variable {property : String}

def Event.apply : Event property → PropertySet → PropertySet
  | look => observeProperty property
  | change c => c.apply

/-- The properties after a history. -/
def play (history : List (Event property)) (p : PropertySet) : PropertySet :=
  history.foldl (fun p e => e.apply p) p

/-- What the property was at each look of a history, in order. -/
def sightings : List (Event property) → PropertySet → List (Option Json)
  | [], _ => []
  | .look :: rest, p => p.get? property :: sightings rest (observeProperty property p)
  | .change c :: rest, p => sightings rest (c.apply p)

/-- The last value that was seen, whether or not the property was absent since. -/
def lastSeen (seen : List (Option Json)) : Option Json := seen.reduceOption.getLast?

theorem lastSeen_cons (sight : Option Json) (seen : List (Option Json)) :
    lastSeen (sight :: seen) = (lastSeen seen).or sight := by
  cases sight with
  | none => rw [lastSeen, List.reduceOption_cons_of_none, Option.or_none, lastSeen]
  | some value =>
      rw [lastSeen, List.reduceOption_cons_of_some, List.getLast?_cons, ← lastSeen]
      cases lastSeen seen <;> rfl

/-- What is kept is the last value that was seen, or what was there at the start. -/
theorem previous_play (history : List (Event property)) (p : PropertySet) :
    (play history p).get? (previousKey property) =
      (lastSeen (sightings history p)).or (p.get? (previousKey property)) := by
  induction history generalizing p with
  | nil => rfl
  | cons e rest ih =>
      refine (ih (e.apply p)).trans ?_
      cases e with
      | look =>
          rw [sightings, lastSeen_cons, Option.or_assoc]
          exact congrArg _ (previous_observeProperty property p)
      | change c => exact congrArg _ (c.previous p)

/-- Two sights of a property at which it was present, with equal values. -/
def Same (current before : Option Json) : Prop :=
  ∃ v w, current = some v ∧ before = some w ∧ v == w

theorem same_iff {current before : Option Json} :
    Same current before ↔ (current.isSome && current == before) = true := by
  cases current with
  | none => simp [Same]
  | some v => cases before <;> simp [Same]

/-- What was seen last is what was seen at the last look, unless the property was absent then. -/
theorem lastSeen_of_getLast? {seen : List (Option Json)} (present : seen.getLast? ≠ some none) :
    lastSeen seen = seen.getLast?.join := by
  rcases seen.eq_nil_or_concat' with rfl | ⟨before, sight, rfl⟩
  · rfl
  · rw [List.getLast?_concat] at present ⊢
    cases sight with
    | none => exact absurd rfl present
    | some value => simp [lastSeen, List.reduceOption_append]

/-- A look after a history flags a property as fixed if and only if it is present with the last
value that was seen. -/
theorem flag_look {p : PropertySet} (fresh : p.get? (previousKey property) = none)
    (history : List (Event property)) :
    ∃ fixed, (observeProperty property (play history p)).get? (fixedPointFlag property) =
        some (.bool fixed) ∧
      (fixed ↔ Same ((play history p).get? property) (lastSeen (sightings history p))) := by
  refine ⟨_, flag_observeProperty property (play history p), ?_⟩
  rw [previous_play, fresh, Option.or_none]
  exact same_iff.symm

/-- A pass that watches a property flags it as fixed if and only if it is present and has the last
value that was seen of it.  That is the value at the look just before, unless the property was
absent then.  So the flag says that the property was present at two looks in a row with equal
values, and is wrong about that only for a property that was absent at the look before and is back
with the last value that was seen. -/
theorem fixedPoint_compares (id : TaskId) (l : GateList) (history : List (Event property))
    (p : PropertySet) (fresh : p.get? (previousKey property) = none) :
    let current := (play history p).get? property
    let seen := sightings history p
    ∃ (after : PropertySet) (fixed : Bool),
      (∀ (m : Type → Type) [Monad m] [LawfulMonad m],
        ((fixedPoint (m := m) id property).run l).run.run (play history p) =
          pure (.ok l, after)) ∧
      after.get? (fixedPointFlag property) = some (.bool fixed) ∧
      (fixed ↔ Same current (lastSeen seen)) ∧
      ((fixed ↔ Same current seen.getLast?.join) ↔
        ¬ (seen.getLast? = some none ∧ Same current (lastSeen seen))) := by
  intro current seen
  obtain ⟨fixed, flag, compares⟩ := flag_look fresh history
  refine ⟨_, fixed, fun m _ _ => run_fixedPoint id property l (play history p), flag, compares, ?_⟩
  by_cases absent : seen.getLast? = some none
  · have notBefore : ¬ Same current seen.getLast?.join := by
      rintro ⟨v, w, -, before, -⟩
      rw [absent] at before
      cases before
    rw [and_iff_right absent, ← compares, iff_false_right notBefore]
  · rw [← lastSeen_of_getLast? absent, iff_true_left compares]
    exact fun h => absent h.1

/-- A size of three that was removed, looked at and written again is flagged, though it was absent
at the look before. -/
example :
    let history : List (Event "size") := [.change (.write "size" (.int 3)), .look,
      .change (.remove "size"), .look, .change (.write "size" (.int 3))]
    let p := play history PropertySet.empty
    sightings history PropertySet.empty = [some (.int 3), none] ∧
      (observeProperty "size" p).get? (fixedPointFlag "size") = some (.bool true) :=
  ⟨rfl, rfl⟩

end QuantumControl.Circuit
