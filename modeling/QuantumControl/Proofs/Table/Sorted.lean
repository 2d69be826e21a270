import Mathlib.Data.List.Nodup
import QuantumControl.Table
import QuantumControl.Table.Sorted

/-!
# Ascending entry lists as finite maps

Writing into an entry list stops at the first key that is not smaller.  In an
ascending list this is the key that is written or one past its place, so that
writing acts on the values that keys have as it does for any finite map, and
leaves an ascending list.

An ascending list is determined by the values that its keys have (`Ascending.ext`).
So a list of pairs that is sorted keeps of each key the last value, and a list that
is ascending already stays as it is.
-/

namespace QuantumControl.Sorted

variable {κ ν : Type} [LT κ]

/-- The keys go up strictly. -/
def Ascending (es : List (κ × ν)) : Prop := es.Pairwise fun a b => a.1 < b.1

theorem ascending_nil : Ascending ([] : List (κ × ν)) := List.Pairwise.nil

theorem Ascending.nodup [Std.Irrefl (fun a b : κ => a < b)] {es : List (κ × ν)}
    (h : Ascending es) : (es.map Prod.fst).Nodup := by
  refine List.pairwise_map.2 (h.imp fun {a b} less same => ?_)
  rw [same] at less
  exact Std.Irrefl.irrefl _ less

/-- A key before the first entry is before every other one. -/
theorem Ascending.before
    [Trans (fun a b : κ => a < b) (fun a b : κ => a < b) (fun a b : κ => a < b)] {k : κ}
    {first : κ × ν} {es : List (κ × ν)} (h : Ascending (first :: es)) (before : k < first.1) :
    ∀ e ∈ first :: es, k < e.1 :=
  List.forall_mem_cons.2 ⟨before, fun e he => Trans.trans before ((List.pairwise_cons.1 h).1 e he)⟩

/-! ## Entries and the values of keys -/

section Entries

variable [DecidableEq κ] [Std.Irrefl (fun a b : κ => a < b)]

/-- The entries of an ascending list are the values that its keys have. -/
theorem Ascending.find_eq_some_iff {es : List (κ × ν)} (h : Ascending es) {k : κ} {v : ν} :
    Table.find k es = some v ↔ (k, v) ∈ es :=
  ⟨Table.mem_of_find_eq_some, fun mem => Table.find_eq_some_of_mem mem h.nodup⟩

/-- In any order, the entries of an ascending list have the same values for the keys. -/
theorem Ascending.find_perm {es fs : List (κ × ν)} (h : Ascending es) (perm : fs.Perm es) (k : κ) :
    Table.find k fs = Table.find k es := by
  have nodup : (fs.map Prod.fst).Nodup := (perm.map Prod.fst).nodup_iff.2 h.nodup
  ext v
  rw [h.find_eq_some_iff, ← perm.mem_iff]
  exact ⟨Table.mem_of_find_eq_some, fun mem => Table.find_eq_some_of_mem mem nodup⟩

variable [Trans (fun a b : κ => a < b) (fun a b : κ => a < b) (fun a b : κ => a < b)]

/-- An ascending list is determined by the values that keys have. -/
theorem Ascending.ext {es fs : List (κ × ν)} (he : Ascending es) (hf : Ascending fs)
    (same : ∀ k, Table.find k es = Table.find k fs) : es = fs := by
  have perm : es.Perm fs := by
    refine (List.perm_ext_iff_of_nodup he.nodup.of_map hf.nodup.of_map).2 fun e => ?_
    rw [← he.find_eq_some_iff, same, hf.find_eq_some_iff]
  refine perm.eq_of_pairwise (fun a b _ _ less more => ?_) he hf
  exact absurd (Trans.trans less more) (Std.Irrefl.irrefl a.1)

end Entries

/-! ## Writing -/

variable [DecidableLT κ]

/-- The entries after writing have the key that was written, or were there. -/
theorem mem_alter {k : κ} {f : Option ν → ν} {es : List (κ × ν)} {e : κ × ν}
    (h : e ∈ alter k f es) : e.1 = k ∨ e ∈ es := by
  fun_induction alter k f es with
  | case1 => exact .inl (by rw [List.mem_singleton.1 h])
  | case2 first es before =>
      rcases List.mem_cons.1 h with rfl | old
      · exact .inl rfl
      · exact .inr old
  | case3 first es notBefore after ih =>
      rcases List.mem_cons.1 h with rfl | old
      · exact .inr List.mem_cons_self
      · exact (ih old).imp_right (List.mem_cons_of_mem _)
  | case4 first es notBefore notAfter =>
      rcases List.mem_cons.1 h with rfl | old
      · exact .inl rfl
      · exact .inr (List.mem_cons_of_mem _ old)

variable [Std.Trichotomous (fun a b : κ => a < b)]
  [Trans (fun a b : κ => a < b) (fun a b : κ => a < b) (fun a b : κ => a < b)]

theorem Ascending.alter {es : List (κ × ν)} (h : Ascending es) (k : κ) (f : Option ν → ν) :
    Ascending (alter k f es) := by
  fun_induction Sorted.alter k f es with
  | case1 => exact List.pairwise_singleton _ _
  | case2 first es before => exact List.pairwise_cons.2 ⟨h.before before, h⟩
  | case3 first es notBefore after ih =>
      obtain ⟨above, rest⟩ := List.pairwise_cons.1 h
      refine List.pairwise_cons.2 ⟨fun e he => ?_, ih rest⟩
      rcases mem_alter he with written | old
      · rw [written]
        exact after
      · exact above e old
  | case4 first es notBefore notAfter =>
      obtain rfl : k = first.1 := Std.Trichotomous.trichotomous _ _ notBefore notAfter
      exact List.pairwise_cons.2 (List.pairwise_cons.1 h)

variable [DecidableEq κ] [Std.Irrefl (fun a b : κ => a < b)]

/-- Writing changes the value of the key that is written, and no other. -/
theorem Ascending.find_alter {es : List (κ × ν)} (h : Ascending es) (k j : κ)
    (f : Option ν → ν) :
    Table.find j (Sorted.alter k f es) =
      if j = k then some (f (Table.find k es)) else Table.find j es := by
  fun_induction Sorted.alter k f es with
  | case1 => simp only [Table.find, eq_comm]
  | case2 first es before =>
      have absent : Table.find k (first :: es) = none := by
        rw [Table.find_eq_none_iff]
        intro member
        obtain ⟨e, he, same⟩ := List.mem_map.1 member
        exact Std.Irrefl.irrefl k (same ▸ h.before before e he)
      rw [absent]
      simp only [Table.find, eq_comm]
  | case3 first es notBefore after ih =>
      have other : first.1 ≠ k := fun same => Std.Irrefl.irrefl k (same ▸ after)
      rw [Table.find, ih (List.pairwise_cons.1 h).2, Table.find, if_neg other, Table.find]
      by_cases here : first.1 = j
      · rw [if_pos here, if_pos here, if_neg fun same => other (here.trans same)]
      · rw [if_neg here, if_neg here]
  | case4 first es notBefore notAfter =>
      obtain rfl : k = first.1 := Std.Trichotomous.trichotomous _ _ notBefore notAfter
      rw [Table.find, Table.find, Table.find, if_pos rfl]
      simp only [eq_comm]
      split <;> rfl

/-! ## Sorting a list of pairs -/

/-- Pairs that are written one after the other leave an ascending list, and each key with its last
value. -/
theorem Ascending.foldl_insert {sorted : List (κ × ν)} (h : Ascending sorted)
    (es : List (κ × ν)) :
    Ascending (es.foldl (fun sorted e => insert e.1 e.2 sorted) sorted) ∧
      ∀ k, Table.find k (es.foldl (fun sorted e => insert e.1 e.2 sorted) sorted) =
        (Table.find k es.reverse).or (Table.find k sorted) := by
  induction es generalizing sorted with
  | nil => exact ⟨h, fun _ => rfl⟩
  | cons e es ih =>
      obtain ⟨ascending, values⟩ := ih (h.alter e.1 fun _ => e.2)
      refine ⟨ascending, fun k => (values k).trans ?_⟩
      rw [h.find_alter, List.reverse_cons, Table.find_append, Option.or_assoc]
      simp only [Table.find, eq_comm (a := k)]
      split <;> rfl

theorem ascending_ofList (es : List (κ × ν)) : Ascending (ofList es) :=
  (ascending_nil.foldl_insert es).1

/-- Of several values for one key the last stays. -/
theorem find_ofList (es : List (κ × ν)) (k : κ) :
    Table.find k (ofList es) = Table.find k es.reverse := by
  rw [ofList, (ascending_nil.foldl_insert es).2 k, Table.find_nil, Option.or_none]

theorem mem_of_mem_ofList {es : List (κ × ν)} {e : κ × ν} (mem : e ∈ ofList es) : e ∈ es := by
  rw [← (ascending_ofList es).find_eq_some_iff, find_ofList] at mem
  exact List.mem_reverse.1 (Table.mem_of_find_eq_some mem)

/-- Sorting the entries of an ascending list in any order gives this list back. -/
theorem Ascending.ofList_perm {es fs : List (κ × ν)} (h : Ascending es) (perm : fs.Perm es) :
    ofList fs = es :=
  (ascending_ofList fs).ext h fun k => by
    rw [find_ofList, h.find_perm ((List.reverse_perm fs).trans perm)]

/-- Sorting pairs with different keys keeps them all. -/
theorem ofList_perm_of_nodup {es : List (κ × ν)} (distinct : (es.map Prod.fst).Nodup) :
    (ofList es).Perm es := by
  have reversed : (es.reverse.map Prod.fst).Nodup := by
    rwa [List.map_reverse, List.nodup_reverse]
  refine (List.perm_ext_iff_of_nodup (ascending_ofList es).nodup.of_map distinct.of_map).2 ?_
  intro e
  rw [← (ascending_ofList es).find_eq_some_iff, find_ofList, ← List.mem_reverse]
  exact ⟨Table.mem_of_find_eq_some, fun mem => Table.find_eq_some_of_mem mem reversed⟩

/-- Sorting some of the keys is choosing them from all that are sorted. -/
theorem filter_ofList (p : κ → Bool) (es : List (κ × ν)) :
    (ofList es).filter (p ·.1) = ofList (es.filter (p ·.1)) := by
  have chosen : Ascending ((ofList es).filter (p ·.1)) := (ascending_ofList es).filter _
  refine chosen.ext (ascending_ofList _) fun k => ?_
  rw [Table.find_filter, find_ofList, find_ofList, ← List.filter_reverse, Table.find_filter]

end QuantumControl.Sorted
