import QuantumControl.Circuit.Pass
import Mathlib.Data.List.Chain

/-!
# The normal form of a gate list

One sweep of `cancelPairs` removes the pairs that it meets and leaves those that
come together by a removal to the next one.  `reduce` is what all sweeps together
amount to: it keeps the gates on a stack, and cancels a gate against the top.

Why the order of removals does not matter is `foldl_push_cancelPairs`: on a stack
without pairs, pushing an involution twice changes nothing, so a pair may be
removed before it is pushed or by being pushed.
-/

namespace QuantumControl.Circuit

/-- Two gates of which the second undoes the first. -/
def Gate.Cancels (g h : Gate) : Prop := g.isSelfInverse ∧ g = h

instance (g h : Gate) : Decidable (g.Cancels h) := inferInstanceAs (Decidable (_ ∧ _))

theorem Gate.Cancels.symm {g h : Gate} (c : g.Cancels h) : h.Cancels g := by
  obtain ⟨involution, rfl⟩ := c
  exact ⟨involution, rfl⟩

/-- No gate cancels with the next one. -/
def Reduced (gates : List Gate) : Prop := gates.IsChain fun g h => ¬ g.Cancels h

instance (gates : List Gate) : Decidable (Reduced gates) :=
  inferInstanceAs (Decidable (gates.IsChain _))

theorem reduced_nil : Reduced [] := List.IsChain.nil

theorem reduced_cons {g : Gate} {gates : List Gate} :
    Reduced (g :: gates) ↔ (∀ h ∈ gates.head?, ¬ g.Cancels h) ∧ Reduced gates :=
  List.isChain_cons

/-! ## The stack -/

/-- Put a gate on a stack, or take the top away if the two cancel. -/
def push : List Gate → Gate → List Gate
  | [], g => [g]
  | top :: stack, g => if top.Cancels g then stack else g :: top :: stack

/-- The gates that are left when every gate is pushed in turn. -/
def reduce (gates : List Gate) : List Gate := (gates.foldl push []).reverse

/-- What does not cancel with the top is put on it. -/
theorem push_of_apart {stack : List Gate} {g : Gate}
    (apart : ∀ top ∈ stack.head?, ¬ top.Cancels g) : push stack g = g :: stack := by
  cases stack with
  | nil => rfl
  | cons top stack => exact if_neg (apart top rfl)

theorem push_of_cancels {stack : List Gate} {top g : Gate} (c : top.Cancels g) :
    push (top :: stack) g = stack := if_pos c

theorem Reduced.push {stack : List Gate} (h : Reduced stack) (g : Gate) :
    Reduced (push stack g) := by
  by_cases apart : ∀ top ∈ stack.head?, ¬ top.Cancels g
  · rw [push_of_apart apart, reduced_cons]
    exact ⟨fun top mem c => apart top mem c.symm, h⟩
  · cases stack with
    | nil => exact absurd (by simp) apart
    | cons top stack =>
        have c : top.Cancels g := by simpa using apart
        rw [push_of_cancels c]
        exact (reduced_cons.1 h).2

/-- On a stack without pairs, pushing an involution twice changes nothing. -/
theorem Reduced.push_push {stack : List Gate} (h : Reduced stack) {g : Gate}
    (involution : g.isSelfInverse) : Circuit.push (Circuit.push stack g) g = stack := by
  by_cases apart : ∀ top ∈ stack.head?, ¬ top.Cancels g
  · rw [push_of_apart apart]
    exact push_of_cancels ⟨involution, rfl⟩
  · cases stack with
    | nil => exact absurd (by simp) apart
    | cons top stack =>
        have c : top.Cancels g := by simpa using apart
        obtain ⟨-, rfl⟩ := c
        rw [push_of_cancels ⟨involution, rfl⟩]
        exact push_of_apart fun next mem c => (reduced_cons.1 h).1 next mem c.symm

/-- Gates without pairs are all put on a stack whose top does not cancel with the first. -/
theorem Reduced.foldl_push_eq {gates : List Gate} (h : Reduced gates) {stack : List Gate}
    (apart : ∀ top ∈ stack.head?, ∀ g ∈ gates.head?, ¬ top.Cancels g) :
    gates.foldl Circuit.push stack = gates.reverse ++ stack := by
  induction gates generalizing stack with
  | nil => rfl
  | cons g gates ih =>
      obtain ⟨first, rest⟩ := reduced_cons.1 h
      rw [List.foldl_cons, push_of_apart fun top mem => apart top mem g rfl, ih rest,
        List.reverse_cons, List.append_assoc]
      · rfl
      · rintro top ⟨⟩
        exact first

/-- Gates without pairs are their own normal form. -/
theorem Reduced.reduce_eq {gates : List Gate} (h : Reduced gates) : reduce gates = gates := by
  rw [reduce, h.foldl_push_eq (by simp), List.append_nil, List.reverse_reverse]

/-! ## Sweeps -/

/-- A sweep does not change what a stack without pairs becomes. -/
theorem foldl_push_cancelPairs {stack : List Gate} (h : Reduced stack) (gates : List Gate) :
    (cancelPairs gates).foldl push stack = gates.foldl push stack := by
  fun_induction cancelPairs gates generalizing stack with
  | case1 g k rest pair ih =>
      obtain ⟨involution, rfl⟩ : g.isSelfInverse ∧ g = k := by simpa using pair
      rw [ih h, List.foldl_cons, List.foldl_cons, h.push_push involution]
  | case2 g k rest noPair ih =>
      rw [List.foldl_cons, ih (h.push g)]
      rfl
  | case3 gates short => rfl

theorem reduce_cancelPairs (gates : List Gate) : reduce (cancelPairs gates) = reduce gates := by
  rw [reduce, foldl_push_cancelPairs reduced_nil, reduce]

/-- A sweep removes gates in pairs. -/
theorem exists_length_cancelPairs (gates : List Gate) :
    ∃ pairs, gates.length = (cancelPairs gates).length + 2 * pairs := by
  fun_induction cancelPairs gates with
  | case1 g k rest pair ih =>
      obtain ⟨pairs, length⟩ := ih
      refine ⟨pairs + 1, ?_⟩
      rw [List.length_cons, List.length_cons, length]
      omega
  | case2 g k rest noPair ih =>
      obtain ⟨pairs, length⟩ := ih
      refine ⟨pairs, ?_⟩
      rw [List.length_cons, length, List.length_cons]
      omega
  | case3 gates short => exact ⟨0, rfl⟩

theorem length_cancelPairs_le (gates : List Gate) :
    (cancelPairs gates).length ≤ gates.length := by
  obtain ⟨pairs, length⟩ := exists_length_cancelPairs gates
  omega

/-- A sweep that does not shorten a list has found no pair in it. -/
theorem reduced_of_length_cancelPairs {gates : List Gate}
    (h : (cancelPairs gates).length = gates.length) : Reduced gates := by
  fun_induction cancelPairs gates with
  | case1 g k rest pair ih =>
      have shorter := length_cancelPairs_le rest
      rw [List.length_cons, List.length_cons] at h
      omega
  | case2 g k rest noPair ih =>
      refine reduced_cons.2 ⟨?_, ih (Nat.succ.inj h)⟩
      rintro next ⟨⟩ c
      exact noPair (by simpa [Gate.Cancels] using c)
  | case3 gates short =>
      match gates, short with
      | [], _ => exact reduced_nil
      | [g], _ => exact List.IsChain.singleton g
      | g :: k :: rest, short => exact absurd rfl (short g k rest)

/-- A sweep keeps a list without pairs as it is. -/
theorem Reduced.cancelPairs_eq {gates : List Gate} (h : Reduced gates) :
    cancelPairs gates = gates := by
  fun_induction cancelPairs gates with
  | case1 g k rest pair ih =>
      have c : g.Cancels k := by simpa [Gate.Cancels] using pair
      exact absurd c ((reduced_cons.1 h).1 k rfl)
  | case2 g k rest noPair ih => rw [ih (reduced_cons.1 h).2]
  | case3 gates short => rfl

/-- A sweep that does not shorten a list keeps it. -/
theorem cancelPairs_of_same {gates : List Gate}
    (same : (cancelPairs gates).length = gates.length) : cancelPairs gates = gates :=
  (reduced_of_length_cancelPairs same).cancelPairs_eq

end QuantumControl.Circuit
