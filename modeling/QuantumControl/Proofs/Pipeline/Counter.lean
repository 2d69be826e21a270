import Mathlib.Tactic.Choose
import QuantumControl.Pipeline.Stream

/-!
# Counting passes with a machine word

A pull of a loop may go round several times before it has a result: past the last task
it counts the pass, asks the predicate and begins again, without yielding if there are
no tasks.  Here one such round is a step of its own, `Counter.next`, and the passes are
counted as a machine counts them, by a word that could overflow.

It never does, whatever the predicate answers: a loop that is not over has made fewer
passes than its ceiling (`Counter.Sound`), so there is room to count one more.
-/

namespace QuantumControl.Pipeline

variable {m : Type → Type} {P : Type}

/-! ## What surely holds of a result -/

/-- All the results that a computation may have satisfy a predicate. -/
def Surely {M : Type → Type} [Monad M] {α : Type} (q : α → Prop) (x : M α) : Prop :=
  ∃ y : M {a // q a}, Subtype.val <$> y = x

section Surely

variable {M : Type → Type} [Monad M] [LawfulMonad M] {α β : Type} {q : α → Prop} {x : M α}

theorem surely_pure {a : α} (h : q a) : Surely q (pure a : M α) :=
  ⟨pure ⟨a, h⟩, map_pure _ _⟩

theorem surely_true (x : M α) : Surely (fun _ => True) x :=
  ⟨(⟨·, trivial⟩) <$> x, by simp⟩

theorem surely_id {x : Id α} : Surely q x ↔ q x.run :=
  ⟨fun ⟨y, h⟩ => h ▸ y.run.2, fun h => ⟨pure ⟨x, h⟩, rfl⟩⟩

theorem Surely.run {σ : Type} {x : StateM σ α} (h : Surely q x) (state : σ) :
    q (x.run state).1 := by
  obtain ⟨y, rfl⟩ := h
  exact (y.run state).1.2

theorem Surely.bind {q' : β → Prop} (h : Surely q x) {f : α → M β}
    (next : ∀ a, q a → Surely q' (f a)) : Surely q' (x >>= f) := by
  obtain ⟨y, rfl⟩ := h
  choose g hg using next
  refine ⟨y >>= fun a => g a.1 a.2, ?_⟩
  rw [map_bind, bind_map_left]
  exact bind_congr fun a => hg a.1 a.2

theorem Surely.mono {q' : α → Prop} (h : Surely q x) (weaker : ∀ a, q a → q' a) :
    Surely q' x := by
  rw [← bind_pure x]
  exact h.bind fun a ha => surely_pure (weaker a ha)

theorem Surely.map {q' : β → Prop} (h : Surely q x) {f : α → β} (next : ∀ a, q a → q' (f a)) :
    Surely q' (f <$> x) := by
  rw [map_eq_pure_bind]
  exact h.bind fun a ha => surely_pure (next a ha)

/-- What follows a computation matters on its possible results only. -/
theorem Surely.bind_eq (h : Surely q x) {f g : α → M β} (same : ∀ a, q a → f a = g a) :
    x >>= f = x >>= g := by
  obtain ⟨y, rfl⟩ := h
  rw [bind_map_left, bind_map_left]
  exact bind_congr fun a => same a.1 a.2

end Surely

/-! ## Counters -/

/-- What a round comes to. -/
inductive Round (m : Type → Type) (P : Type) where
  | yields (task : Task m P)
  | repeats
  | ends
  | fails (error : PassError)

/-- What a round has come to, unless there has to be another one. -/
def Round.result? : Round m P → Option (Except PassError (Option (Task m P)))
  | yields t => some (.ok (some t))
  | repeats => none
  | ends => some (.ok none)
  | fails error => some (.error error)

/-- How far a loop is: the passes that it made, by a machine word, and the position within the
present one. -/
structure Counter where
  iteration : UInt64
  position : Nat
  finished : Bool
deriving DecidableEq, Repr

namespace Counter

def fresh : Counter := ⟨0, 0, false⟩

/-- Count a pass that is over, and decide. -/
def endPass (ceiling : UInt64) (again : Bool) (c : Counter) : Round m P × Counter :=
  let iteration := c.iteration + 1
  if !again then (.ends, ⟨iteration, 0, true⟩)
  else if ceiling ≤ iteration then
    (.fails (.maxIterationReached ceiling.toNat), ⟨iteration, 0, true⟩)
  else (.repeats, ⟨iteration, 0, false⟩)

/-- One round of a loop over tasks. -/
def next {M : Type → Type} [Monad M] (tasks : List (Task m P)) (ceiling : UInt64)
    (again : M Bool) (c : Counter) : M (Round m P × Counter) :=
  if c.finished then return (.ends, c)
  else if ceiling = 0 then return (.fails (.maxIterationReached 0), { c with finished := true })
  else match tasks[c.position]? with
    | some t => return (.yields t, { c with position := c.position + 1 })
    | none => do return endPass ceiling (← again) c

/-- The counters that a loop gets to, whatever the predicate answers. -/
inductive Reachable (tasks : List (Task m P)) (ceiling : UInt64) : Counter → Prop
  | fresh : Reachable tasks ceiling fresh
  | next {c : Counter} (h : Reachable tasks ceiling c) (again : Bool) :
      Reachable tasks ceiling (c.next tasks ceiling (pure again : Id Bool)).run.2

/-- A loop that is not over has made fewer passes than its ceiling, unless that is zero. -/
structure Sound (ceiling : UInt64) (c : Counter) : Prop where
  le : c.iteration ≤ ceiling
  lt : c.finished = false → ceiling ≠ 0 → c.iteration < ceiling

section Next

variable {M : Type → Type} [Monad M] {tasks : List (Task m P)} {ceiling : UInt64}
  (again : M Bool) {c : Counter}

theorem next_of_finished (h : c.finished = true) :
    c.next tasks ceiling again = pure (.ends, c) := by
  rw [next, if_pos h]

theorem next_of_overrun (unfinished : c.finished = false) :
    c.next tasks 0 again = pure (.fails (.maxIterationReached 0), { c with finished := true }) := by
  rw [next, if_neg (by rw [unfinished]; decide), if_pos rfl]

variable (unfinished : c.finished = false) (pos : ceiling ≠ 0)

include unfinished pos

theorem next_of_getElem? {t : Task m P} (here : tasks[c.position]? = some t) :
    c.next tasks ceiling again = pure (.yields t, { c with position := c.position + 1 }) := by
  rw [next, if_neg (by rw [unfinished]; decide), if_neg pos, here]

theorem next_of_past (past : tasks[c.position]? = none) :
    c.next tasks ceiling again = do return endPass ceiling (← again) c := by
  rw [next, if_neg (by rw [unfinished]; decide), if_neg pos, past]

end Next

section EndPass

variable {ceiling : UInt64} {c : Counter}

theorem endPass_of_reached (reached : ceiling ≤ c.iteration + 1) :
    (endPass ceiling true c : Round m P × Counter) =
      (.fails (.maxIterationReached ceiling.toNat), ⟨c.iteration + 1, 0, true⟩) := if_pos reached

theorem endPass_of_below (below : c.iteration + 1 < ceiling) :
    (endPass ceiling true c : Round m P × Counter) =
      (.repeats, ⟨c.iteration + 1, 0, false⟩) := if_neg (UInt64.not_le.2 below)

end EndPass

/-- Where a loop can be when a round begins. -/
inductive Phase (tasks : List (Task m P)) (ceiling : UInt64) (c : Counter) : Prop
  | finished (h : c.finished = true)
  | overrun (unfinished : c.finished = false) (zero : ceiling = 0)
  | within (unfinished : c.finished = false) (pos : ceiling ≠ 0) (t : Task m P)
      (here : tasks[c.position]? = some t)
  | past (unfinished : c.finished = false) (pos : ceiling ≠ 0)
      (past : tasks[c.position]? = none)

theorem phase (tasks : List (Task m P)) (ceiling : UInt64) (c : Counter) :
    c.Phase tasks ceiling := by
  cases state : c.finished with
  | true => exact .finished state
  | false =>
      by_cases zero : ceiling = 0
      · exact .overrun state zero
      · cases here : tasks[c.position]? with
        | some t => exact .within state zero t here
        | none => exact .past state zero here

/-- What a round can do to a counter. -/
inductive Move (tasks : List (Task m P)) (ceiling : UInt64) (c : Counter) :
    Round m P × Counter → Prop
  | finished (h : c.finished = true) : Move tasks ceiling c (.ends, c)
  | overrun (zero : ceiling = 0) :
      Move tasks ceiling c (.fails (.maxIterationReached 0), { c with finished := true })
  | yields {t : Task m P} (unfinished : c.finished = false) (pos : ceiling ≠ 0)
      (here : tasks[c.position]? = some t) :
      Move tasks ceiling c (.yields t, { c with position := c.position + 1 })
  | repeats (unfinished : c.finished = false) (pos : ceiling ≠ 0)
      (past : tasks[c.position]? = none) (below : c.iteration + 1 < ceiling) :
      Move tasks ceiling c (.repeats, ⟨c.iteration + 1, 0, false⟩)
  | ends (unfinished : c.finished = false) (pos : ceiling ≠ 0) :
      Move tasks ceiling c (.ends, ⟨c.iteration + 1, 0, true⟩)
  | fails (unfinished : c.finished = false) (pos : ceiling ≠ 0) :
      Move tasks ceiling c
        (.fails (.maxIterationReached ceiling.toNat), ⟨c.iteration + 1, 0, true⟩)

theorem surely_next {M : Type → Type} [Monad M] [LawfulMonad M] (tasks : List (Task m P))
    (ceiling : UInt64) (again : M Bool) (c : Counter) :
    Surely (Move tasks ceiling c) (c.next tasks ceiling again) := by
  cases c.phase tasks ceiling with
  | finished h =>
      rw [next_of_finished again h]
      exact surely_pure (.finished h)
  | overrun unfinished zero =>
      subst zero
      rw [next_of_overrun again unfinished]
      exact surely_pure (.overrun rfl)
  | within unfinished pos t here =>
      rw [next_of_getElem? again unfinished pos here]
      exact surely_pure (.yields unfinished pos here)
  | past unfinished pos past =>
      rw [next_of_past again unfinished pos past]
      refine (surely_true again).bind fun again _ => surely_pure ?_
      cases again with
      | false => exact .ends unfinished pos
      | true =>
          by_cases reached : ceiling ≤ c.iteration + 1
          · rw [endPass_of_reached reached]
            exact .fails unfinished pos
          · rw [endPass_of_below (UInt64.not_le.1 reached)]
            exact .repeats unfinished pos past (UInt64.not_le.1 reached)

/-! ### The word -/

theorem sound_fresh (ceiling : UInt64) : Sound ceiling fresh where
  le := UInt64.zero_le
  lt _ pos := UInt64.pos_iff_ne_zero.2 pos

/-- Below a ceiling there is room to count one more pass. -/
theorem toNat_succ {ceiling iteration : UInt64} (h : iteration < ceiling) :
    (iteration + 1).toNat = iteration.toNat + 1 := by
  have := ceiling.toNat_lt
  rw [UInt64.lt_iff_toNat_lt] at h
  rw [UInt64.toNat_add]
  exact Nat.mod_eq_of_lt (by simpa using by omega)

theorem succ_le {ceiling iteration : UInt64} (h : iteration < ceiling) :
    iteration + 1 ≤ ceiling := by
  rw [UInt64.le_iff_toNat_le, toNat_succ h]
  exact UInt64.lt_iff_toNat_lt.1 h

/-- The passes that may follow the present one. -/
def left (ceiling : UInt64) (c : Counter) : Nat := ceiling.toNat - 1 - c.iteration.toNat

theorem left_of_reached {ceiling : UInt64} {c : Counter} (below : c.iteration < ceiling)
    (reached : ceiling ≤ c.iteration + 1) : c.left ceiling = 0 := by
  have := UInt64.le_iff_toNat_le.1 reached
  rw [toNat_succ below] at this
  rw [left]
  omega

/-- A pass that may be followed by another takes one from those that are left. -/
theorem left_of_below {ceiling : UInt64} {c : Counter} (below : c.iteration < ceiling)
    (more : c.iteration + 1 < ceiling) :
    c.left ceiling = left ceiling ⟨c.iteration + 1, 0, false⟩ + 1 := by
  have := UInt64.lt_iff_toNat_lt.1 more
  rw [toNat_succ below] at this
  rw [left, left, toNat_succ below]
  omega

theorem Sound.move {tasks : List (Task m P)} {ceiling : UInt64} {c : Counter}
    (h : Sound ceiling c) {r : Round m P × Counter} (move : Move tasks ceiling c r) :
    Sound ceiling r.2 := by
  cases move with
  | finished => exact h
  | overrun zero => exact ⟨h.le, fun unfinished => nomatch unfinished⟩
  | yields unfinished pos here => exact ⟨h.le, h.lt⟩
  | repeats unfinished pos past below => exact ⟨UInt64.le_of_lt below, fun _ _ => below⟩
  | ends unfinished pos =>
      exact ⟨succ_le (h.lt unfinished pos), fun unfinished => nomatch unfinished⟩
  | fails unfinished pos =>
      exact ⟨succ_le (h.lt unfinished pos), fun unfinished => nomatch unfinished⟩

theorem Reachable.sound {tasks : List (Task m P)} {ceiling : UInt64} {c : Counter}
    (h : Reachable tasks ceiling c) : Sound ceiling c := by
  induction h with
  | fresh => exact sound_fresh ceiling
  | next h again ih => exact ih.move (surely_id.1 (surely_next tasks ceiling (pure again) _))

end Counter

end QuantumControl.Pipeline
