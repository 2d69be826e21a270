import Mathlib.Algebra.BigOperators.Group.List.Basic
import Mathlib.Algebra.Group.End
import Mathlib.Data.Fintype.Basic
import QuantumControl.Proofs.Circuit.Reduction

/-!
# What one sweep removes

A sweep looks at two gates at a time, and goes on behind both if it removes them.  So
the pairs that it removes stand side by side in the list that it is given: of a run of
one gate it removes as many pairs as there are, and a pair that only comes together by a
removal stays.

`PairsRemoved` records such removals one gate after the other.  All that is known of a
sweep's meaning is read off it, and that a sweep is stuck on reduced lists only is a
matter of lengths: what removes no pair has met none.
-/

namespace QuantumControl.Circuit

open Pipeline

universe u

/-! ## Removals of pairs -/

/-- What is left of a list when some pairs of equal neighbours that undo themselves are removed. -/
inductive PairsRemoved : List Gate → List Gate → Prop where
  | nil : PairsRemoved [] []
  | keep (g : Gate) {gates rest : List Gate} (h : PairsRemoved gates rest) :
      PairsRemoved (g :: gates) (g :: rest)
  | pair {g : Gate} (involution : g.isSelfInverse) {gates rest : List Gate}
      (h : PairsRemoved gates rest) : PairsRemoved (g :: g :: gates) rest

namespace PairsRemoved

theorem refl (gates : List Gate) : PairsRemoved gates gates := by
  induction gates with
  | nil => exact .nil
  | cons g gates ih => exact .keep g ih

variable {gates rest : List Gate}

theorem sublist (h : PairsRemoved gates rest) : rest.Sublist gates := by
  induction h with
  | nil => exact .slnil
  | keep g _ ih => exact ih.cons_cons g
  | pair _ _ ih => exact (ih.cons _).cons _

/-- Removals do not change what the gates amount to, wherever involutions square to one. -/
theorem prod_eq {M : Type u} [Monoid M] {meaning : Gate → M}
    (squares : ∀ g, g.isSelfInverse → meaning g * meaning g = 1) (h : PairsRemoved gates rest) :
    (rest.map meaning).prod = (gates.map meaning).prod := by
  induction h with
  | nil => rfl
  | keep g _ ih => rw [List.map_cons, List.map_cons, List.prod_cons, List.prod_cons, ih]
  | pair involution _ ih =>
      rw [List.map_cons, List.map_cons, List.prod_cons, List.prod_cons, ← mul_assoc,
        squares _ involution, one_mul, ih]

end PairsRemoved

/-! ## The sweep -/

theorem pairsRemoved_cancelPairs (gates : List Gate) : PairsRemoved gates (cancelPairs gates) := by
  fun_induction cancelPairs gates with
  | case1 g k rest pair ih =>
      obtain ⟨involution, rfl⟩ : g.isSelfInverse ∧ g = k := by simpa using pair
      exact .pair involution ih
  | case2 g k rest noPair ih => exact .keep g ih
  | case3 gates short => exact .refl gates

/-- A reduced list has no two equal neighbours that undo themselves. -/
theorem reduced_iff {gates : List Gate} :
    Reduced gates ↔
      ¬ ∃ before g after, gates = before ++ g :: g :: after ∧ g.isSelfInverse := by
  rw [Reduced, List.isChain_iff_forall_rel_of_append_cons_cons]
  constructor
  · rintro chain ⟨before, g, after, found, involution⟩
    exact chain found ⟨involution, rfl⟩
  · rintro noPair g _ before after found ⟨involution, rfl⟩
    exact noPair ⟨before, g, after, found, involution⟩

/-- A sweep keeps the length of the reduced lists and of no others. -/
theorem length_cancelPairs_eq_iff {gates : List Gate} :
    (cancelPairs gates).length = gates.length ↔ Reduced gates :=
  ⟨reduced_of_length_cancelPairs, fun h => congrArg List.length h.cancelPairs_eq⟩

/-- The pass succeeds, keeps the register and removes pairs of equal neighbours that undo
themselves, so that it keeps the product of the gates wherever involutions square to one.  It
removes an even number of gates, and none if and only if there is no such pair; then the list stays
as it is. -/
theorem cancelInversePairs_sweep (l : GateList) :
    ∃ out : GateList,
      (∀ (m : Type → Type) [Monad m] (id : TaskId),
        (cancelInversePairs (m := m) id).run l = pure out) ∧
      out.numQubits = l.numQubits ∧ PairsRemoved l.gates out.gates ∧
      out.gates.Sublist l.gates ∧
      (∀ (M : Type u) [Monoid M] (meaning : Gate → M),
        (∀ g, g.isSelfInverse → meaning g * meaning g = 1) →
          (out.gates.map meaning).prod = (l.gates.map meaning).prod) ∧
      (∃ pairs, l.size = out.size + 2 * pairs) ∧
      (out.size = l.size ↔
        ¬ ∃ before g after, l.gates = before ++ g :: g :: after ∧ g.isSelfInverse) ∧
      (out.size = l.size → out = l) := by
  have removed := pairsRemoved_cancelPairs l.gates
  refine ⟨{ l with gates := cancelPairs l.gates }, fun m _ id => rfl, rfl, removed,
    removed.sublist, fun M _ meaning squares => removed.prod_eq squares,
    exists_length_cancelPairs l.gates, length_cancelPairs_eq_iff.trans reduced_iff,
    fun same => congrArg (GateList.mk l.numQubits) (cancelPairs_of_same same)⟩

/-- One reading of gates as permutations of three points: `h` swaps two of them, `t` is not its own
inverse, and nothing else moves a point. -/
def permuting (g : Gate) : Equiv.Perm (Fin 3) :=
  if g.name = "h" then Equiv.swap 0 1
  else if g.name = "t" then Equiv.swap 0 1 * Equiv.swap 1 2
  else 1

/-- Of eight gates two pairs go, one of them out of a run of three; what comes together by that
stays, and the four gates that are left are the same permutation. -/
theorem cancelInversePairs_sweep_runs :
    let h : Gate := ⟨"h", [0]⟩
    let x : Gate := ⟨"x", [0]⟩
    let t : Gate := ⟨"t", [0]⟩
    ∃ out : GateList,
      (cancelInversePairs (m := Id) ⟨3⟩).run ⟨1, [h, t, x, x, t, h, h, h]⟩ = pure out ∧
        out.gates = [h, t, t, h] ∧ ([h, t, t, h].map permuting).prod ≠ 1 ∧
        (out.gates.map permuting).prod = ([h, t, x, x, t, h, h, h].map permuting).prod ∧
        out.size ≠ 8 := by
  intro h x t
  have squares (g : Gate) (involution : g.isSelfInverse) : permuting g * permuting g = 1 := by
    unfold permuting
    split
    · decide
    · split
      · next noInvolution =>
          rw [Gate.isSelfInverse, noInvolution] at involution
          exact absurd involution (by decide)
      · exact one_mul 1
  obtain ⟨out, run, -, -, -, products, -, stuck, -⟩ :=
    cancelInversePairs_sweep ⟨1, [h, t, x, x, t, h, h, h]⟩
  obtain rfl : ⟨1, [h, t, t, h]⟩ = out := by
    have ran := congrArg (fun computed => (computed.run.run PropertySet.empty).1) (run Id ⟨3⟩)
    exact Except.ok.inj ran
  refine ⟨_, run Id ⟨3⟩, rfl, by decide, products _ permuting squares, fun same => ?_⟩
  exact stuck.1 same ⟨[h, t], x, [t, h, h, h], rfl, rfl⟩

end QuantumControl.Circuit
