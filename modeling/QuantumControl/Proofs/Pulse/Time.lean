import QuantumControl.Pulse.Time

/-!
# The latest of a list of times

The latest instant of a list is in the list, and no other is later.  So it depends neither on
the order of the list nor on how the list is put together: of two lists one after the other it
is the later of the two latest ones.
-/

namespace QuantumControl.Pulse.Time

theorem le_max_left (s t : Time) : s.val ≤ (s.max t).val := by
  unfold max
  split <;> omega

theorem le_max_right (s t : Time) : t.val ≤ (s.max t).val := by
  unfold max
  split <;> omega

theorem max_eq_or (s t : Time) : s.max t = s ∨ s.max t = t := by
  unfold max
  split
  · exact .inr rfl
  · exact .inl rfl

theorem val_max (s t : Time) : (s.max t).val = Max.max s.val t.val := by
  unfold max
  split <;> omega

theorem max_assoc (s t u : Time) : (s.max t).max u = s.max (t.max u) := by
  apply Time.ext
  rw [val_max, val_max, val_max, val_max]
  omega

instance : Std.Associative max := ⟨max_assoc⟩

/-! ## The latest of a list -/

/-- The latest of a list is in it, and none is later. -/
theorem latest?_spec {ts : List Time} {latest : Time} (h : latest? ts = some latest) :
    latest ∈ ts ∧ ∀ t ∈ ts, t.val ≤ latest.val := by
  cases ts with
  | nil => cases h
  | cons t ts =>
      cases h
      induction ts generalizing t with
      | nil => exact ⟨List.mem_singleton_self t, by simp⟩
      | cons u ts ih =>
          obtain ⟨mem, above⟩ := ih (t.max u)
          obtain ⟨first, rest⟩ := List.forall_mem_cons.1 above
          rw [List.foldl_cons]
          constructor
          · rcases List.mem_cons.1 mem with same | later
            · rcases max_eq_or t u with left | right
              · rw [same, left]
                exact List.mem_cons_self
              · rw [same, right]
                exact List.mem_cons_of_mem _ List.mem_cons_self
            · exact List.mem_cons_of_mem _ (List.mem_cons_of_mem _ later)
          · exact List.forall_mem_cons.2 ⟨Int.le_trans (le_max_left t u) first,
              List.forall_mem_cons.2 ⟨Int.le_trans (le_max_right t u) first, rest⟩⟩

theorem exists_latest? {ts : List Time} (h : ts ≠ []) : ∃ t, latest? ts = some t := by
  cases ts with
  | nil => exact absurd rfl h
  | cons t ts => exact ⟨_, rfl⟩

theorem latest_mem {ts : List Time} (h : ts ≠ []) : (latest? ts).getD zero ∈ ts := by
  obtain ⟨latest, found⟩ := exists_latest? h
  rw [found]
  exact (latest?_spec found).1

theorem le_latest {ts : List Time} {t : Time} (mem : t ∈ ts) :
    t.val ≤ ((latest? ts).getD zero).val := by
  obtain ⟨latest, found⟩ := exists_latest? (List.ne_nil_of_mem mem)
  rw [found]
  exact (latest?_spec found).2 t mem

/-! ## The latest of a list in another order, and of two lists -/

theorem latest?_perm {ts us : List Time} (perm : ts.Perm us) : latest? ts = latest? us := by
  by_cases empty : ts = []
  · subst empty
    rw [perm.nil_eq]
  · obtain ⟨t, ht⟩ := exists_latest? empty
    have full : us ≠ [] := by
      rintro rfl
      exact empty perm.eq_nil
    obtain ⟨u, hu⟩ := exists_latest? full
    obtain ⟨memT, aboveT⟩ := latest?_spec ht
    obtain ⟨memU, aboveU⟩ := latest?_spec hu
    have same : t = u := Time.ext (Int.le_antisymm (aboveU t (perm.mem_iff.1 memT))
      (aboveT u (perm.mem_iff.2 memU)))
    rw [ht, hu, same]

theorem latest?_append (ts us : List Time) :
    latest? (ts ++ us) = (latest? ts).merge max (latest? us) := by
  cases ts with
  | nil => cases us <;> rfl
  | cons t ts =>
      cases us with
      | nil => rw [List.append_nil]; rfl
      | cons u us =>
          show some ((ts ++ u :: us).foldl max t) = some ((ts.foldl max t).max (us.foldl max u))
          rw [List.foldl_append, List.foldl_cons, List.foldl_assoc]

end QuantumControl.Pulse.Time
