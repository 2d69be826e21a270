import QuantumControl.Circuit.Pass
import QuantumControl.Proofs.Table.Sorted
import Mathlib.Algebra.Ring.Nat

/-!
# What counting records

The histogram of a gate list has one entry for each name that occurs, with the
number of gates of that name, so that its numbers add up to the number of gates.
`Counts` is the invariant of counting gate by gate.

`Describes` says that the recorded properties are those of a gate list.
-/

namespace QuantumControl.Circuit

open Pipeline

/-- The number of gates with a name. -/
def occurrences (name : String) (gates : List Gate) : Nat := gates.countP (·.name = name)

/-- Counts with one more gate. -/
def tally (counts : List (String × Nat)) (g : Gate) : List (String × Nat) :=
  Sorted.alter g.name (fun n => n.getD 0 + 1) counts

/-- Counts under ascending names, exact for every name, also for those without an entry. -/
structure Counts (counts : List (String × Nat)) (gates : List Gate) : Prop where
  ascending : Sorted.Ascending counts
  pos : ∀ e ∈ counts, 0 < e.2
  exact : ∀ name, (Table.find name counts).getD 0 = occurrences name gates
  total : (counts.map Prod.snd).sum = gates.length

theorem find_tally {counts : List (String × Nat)} (h : Sorted.Ascending counts) (g : Gate)
    (name : String) :
    (Table.find name (tally counts g)).getD 0 =
      (Table.find name counts).getD 0 + occurrences name [g] := by
  rw [tally, h.find_alter, occurrences, List.countP_singleton]
  by_cases same : name = g.name
  · rw [if_pos same, ← same]
    simp
  · rw [if_neg same]
    simp [Ne.symm same]

theorem tally_pos {counts : List (String × Nat)} (h : ∀ e ∈ counts, 0 < e.2) (g : Gate) :
    ∀ e ∈ tally counts g, 0 < e.2 := by
  unfold tally
  fun_induction Sorted.alter g.name (fun n => n.getD 0 + 1) counts with
  | case1 => simp
  | case2 first counts before => exact List.forall_mem_cons.2 ⟨Nat.succ_pos 0, h⟩
  | case3 first counts notBefore after ih =>
      obtain ⟨here, rest⟩ := List.forall_mem_cons.1 h
      exact List.forall_mem_cons.2 ⟨here, ih rest⟩
  | case4 first counts notBefore notAfter =>
      exact List.forall_mem_cons.2 ⟨Nat.succ_pos _, (List.forall_mem_cons.1 h).2⟩

theorem sum_tally (counts : List (String × Nat)) (g : Gate) :
    ((tally counts g).map Prod.snd).sum = (counts.map Prod.snd).sum + 1 := by
  unfold tally
  fun_induction Sorted.alter g.name (fun n => n.getD 0 + 1) counts with
  | case1 => rfl
  | case2 first counts before =>
      rw [List.map_cons, List.sum_cons]
      exact Nat.add_comm 1 _
  | case3 first counts notBefore after ih =>
      rw [List.map_cons, List.sum_cons, ih, List.map_cons, List.sum_cons, Nat.add_assoc]
  | case4 first counts notBefore notAfter =>
      rw [List.map_cons, List.sum_cons, List.map_cons, List.sum_cons, Option.getD_some]
      omega

theorem counts_nil : Counts [] [] :=
  ⟨Sorted.ascending_nil, List.forall_mem_nil _, fun _ => rfl, rfl⟩

theorem Counts.tally {counts : List (String × Nat)} {gates : List Gate} (h : Counts counts gates)
    (g : Gate) : Counts (tally counts g) (gates ++ [g]) where
  ascending := h.ascending.alter g.name _
  pos := tally_pos h.pos g
  exact name := by
    rw [find_tally h.ascending, h.exact, occurrences, occurrences, occurrences,
      List.countP_append]
  total := by
    rw [sum_tally, h.total, List.length_append, List.length_singleton]

theorem Counts.foldl {counts : List (String × Nat)} {gates : List Gate} (h : Counts counts gates)
    (more : List Gate) : Counts (more.foldl Circuit.tally counts) (gates ++ more) := by
  induction more generalizing counts gates with
  | nil => simpa using h
  | cons g more ih => simpa using ih (h.tally g)

/-- The histogram counts the gates. -/
theorem counts_histogram (gates : List Gate) : Counts (histogram gates) gates :=
  counts_nil.foldl gates

/-- The entries are the names that occur, each with how often it does. -/
theorem Counts.mem_iff {counts : List (String × Nat)} {gates : List Gate}
    (h : Counts counts gates) {name : String} {n : Nat} :
    (name, n) ∈ counts ↔ 0 < n ∧ n = occurrences name gates := by
  have count := h.exact name
  constructor
  · intro member
    rw [Table.find_eq_some_of_mem member h.ascending.nodup] at count
    exact ⟨h.pos _ member, count⟩
  · rintro ⟨occurs, rfl⟩
    cases found : Table.find name counts with
    | none =>
        rw [found] at count
        exact absurd count (Nat.ne_of_lt occurs)
    | some m =>
        rw [found] at count
        rw [← count]
        exact Table.mem_of_find_eq_some found

/-! ## Recorded properties -/

/-- The properties after a gate list was counted. -/
def recordOps (l : GateList) (p : PropertySet) : PropertySet :=
  (p.set "size" (.int l.size)).set "count_ops"
    (.object ((histogram l.gates).map fun e => (e.1, Json.int e.2)))

/-- Counting a list does not touch what was observed before. -/
theorem previous_recordOps (l : GateList) (p : PropertySet) :
    (recordOps l p).get? (previousKey "size") = p.get? (previousKey "size") := by
  simp [recordOps, previousKey]

/-- The recorded size is that of a gate list, and the recorded counts have one entry for each name
that occurs, with how often it does. -/
structure Describes (p : PropertySet) (l : GateList) : Prop where
  size : p.get? "size" = some (.int l.size)
  counts : ∃ counts : List (String × Nat),
    p.get? "count_ops" = some (.object (counts.map fun e => (e.1, .int e.2))) ∧
      (counts.map Prod.fst).Nodup ∧
      (∀ name n, (name, n) ∈ counts ↔ 0 < n ∧ n = occurrences name l.gates) ∧
      (counts.map Prod.snd).sum = l.size

theorem describes_recordOps (l : GateList) (p : PropertySet) : Describes (recordOps l p) l where
  size := by simp [recordOps]
  counts := by
    have h := counts_histogram l.gates
    exact ⟨histogram l.gates, by simp [recordOps], h.ascending.nodup, fun _ _ => h.mem_iff, h.total⟩

/-- Other properties may change after counting. -/
theorem Describes.set {p : PropertySet} {l : GateList} (h : Describes p l) {key : String}
    (other : key ≠ "size" ∧ key ≠ "count_ops") (value : Json) : Describes (p.set key value) l where
  size := by
    rw [PropertySet.get?_set, if_neg (Ne.symm other.1)]
    exact h.size
  counts := by
    rw [PropertySet.get?_set, if_neg (Ne.symm other.2)]
    exact h.counts

end QuantumControl.Circuit
