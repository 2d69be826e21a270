import QuantumControl.Pipeline.Factory

/-!
# What a factory knows

A factory keeps its constructors in a table and the aliases by priority in a list,
and every change of the registry updates the two separately.  `Factory.Coherent`
says that they name the same aliases, each once; it holds of every factory that
comes about by registering, unregistering and setting priorities, so that a
condition on a registered alias always has its place in the order of layers.
-/

namespace QuantumControl.Pipeline.Factory

variable {m : Type → Type} {P : Type}

/-- The factories that come about from an empty one.  A call that fails leaves its factory as it
is. -/
inductive Reachable : Factory m P → Prop
  | empty : Reachable empty
  | register {f : Factory m P} (hf : Reachable f) (name : String) (make : Constructor m P) :
      Reachable (f.register name make)
  | unregister {f g : Factory m P} {name : String} (hf : Reachable f)
      (h : f.unregister name = .ok g) : Reachable g
  | setHierarchy {f g : Factory m P} {order : List String} (hf : Reachable f)
      (h : f.setHierarchy order = .ok g) : Reachable g
  | setNesting {f : Factory m P} (hf : Reachable f) (nesting : NestingOrder) :
      Reachable (f.setNesting nesting)

theorem reachable_standard : (standard : Factory m P).Reachable :=
  (Reachable.empty.register _ _).register _ _

/-- The priorities are the registered aliases, each once. -/
structure Coherent (f : Factory m P) : Prop where
  nodup : f.hierarchy.Nodup
  mem_iff : ∀ name, name ∈ f.hierarchy ↔ f.isRegistered name

theorem isRegistered_iff {f : Factory m P} {name : String} :
    f.isRegistered name ↔ ∃ make, f.constructors.get? name = some make := by
  rw [isRegistered, Table.contains, Option.isSome_iff_exists]

theorem coherent_empty : (empty : Factory m P).Coherent :=
  ⟨List.nodup_nil, fun _ => ⟨(nomatch ·), (nomatch ·)⟩⟩

theorem isRegistered_register (f : Factory m P) (name other : String) (make : Constructor m P) :
    (f.register name make).isRegistered other ↔ other = name ∨ f.isRegistered other := by
  rw [isRegistered_iff, isRegistered_iff, register, Table.get?_insert]
  by_cases same : other = name
  · simp [same]
  · simp [same]

theorem Coherent.register {f : Factory m P} (h : f.Coherent) (name : String)
    (make : Constructor m P) : (f.register name make).Coherent := by
  by_cases known : name ∈ f.hierarchy
  · have hierarchy : (f.register name make).hierarchy = f.hierarchy := if_pos known
    refine ⟨hierarchy ▸ h.nodup, fun other => ?_⟩
    rw [hierarchy, isRegistered_register, h.mem_iff]
    constructor
    · exact .inr
    · rintro (rfl | registered)
      · exact (h.mem_iff _).1 known
      · exact registered
  · have hierarchy : (f.register name make).hierarchy = f.hierarchy ++ [name] := if_neg known
    refine ⟨?_, fun other => ?_⟩
    · rw [hierarchy, List.nodup_append]
      refine ⟨h.nodup, List.pairwise_singleton _ name, ?_⟩
      rintro a ha b hb rfl
      exact known (List.mem_singleton.1 hb ▸ ha)
    · rw [hierarchy, isRegistered_register, List.mem_append, List.mem_singleton, h.mem_iff,
        or_comm]

theorem unregister_eq_ok {f g : Factory m P} {name : String} (h : f.unregister name = .ok g) :
    name ∈ f.hierarchy ∧
      g = { f with constructors := f.constructors.erase name
                   hierarchy := f.hierarchy.erase name } := by
  unfold unregister at h
  split at h
  · next known => exact ⟨known, (Except.ok.inj h).symm⟩
  · cases h

theorem Coherent.unregister {f g : Factory m P} (hf : f.Coherent) {name : String}
    (h : f.unregister name = .ok g) : g.Coherent := by
  obtain ⟨-, rfl⟩ := unregister_eq_ok h
  refine ⟨hf.nodup.erase name, fun other => ?_⟩
  rw [isRegistered_iff, Table.get?_erase, hf.nodup.mem_erase_iff, hf.mem_iff, isRegistered_iff]
  by_cases same : other = name
  · simp [same]
  · simp [same]

/-- Sorted copies of two lists of texts are equal if and only if the lists are permutations of each
other. -/
theorem mergeSort_eq_mergeSort_iff {as bs : List String} :
    as.mergeSort = bs.mergeSort ↔ as.Perm bs := by
  constructor
  · intro same
    have perm := (as.mergeSort_perm (· ≤ ·)).symm
    rw [same] at perm
    exact perm.trans (bs.mergeSort_perm _)
  · intro perm
    have sorted (cs : List String) : cs.mergeSort.Pairwise (· ≤ ·) := by
      have ascending : cs.mergeSort.Pairwise fun a b => decide (a ≤ b) := by
        refine List.pairwise_mergeSort (fun a b c ab bc => ?_) (fun a b => ?_) cs
        · rw [decide_eq_true_iff] at ab bc ⊢
          exact String.le_trans ab bc
        · simpa using String.le_total a b
      simpa using ascending
    refine List.Perm.eq_of_pairwise (fun a b _ _ ab ba => String.le_antisymm ab ba)
      (sorted as) (sorted bs) ?_
    exact ((as.mergeSort_perm _).trans perm).trans (bs.mergeSort_perm _).symm

/-- The check on sorted copies asks for a permutation. -/
theorem setHierarchy_eq (f : Factory m P) (order : List String) :
    f.setHierarchy order =
      if order.Perm f.hierarchy then .ok { f with hierarchy := order }
      else .error (.invalidConfiguration
        (s!"hierarchy {Text.quotedList order} is not a permutation of the registered aliases " ++
          Text.quotedList f.hierarchy)) := by
  simp only [setHierarchy, mergeSort_eq_mergeSort_iff]

theorem setHierarchy_of_perm {f : Factory m P} {order : List String}
    (perm : order.Perm f.hierarchy) : f.setHierarchy order = .ok { f with hierarchy := order } := by
  rw [setHierarchy_eq, if_pos perm]

/-- The built-in aliases may change places. -/
theorem setHierarchy_standard : (standard : Factory m P).setHierarchy ["do_while", "condition"] =
    .ok { standard with hierarchy := ["do_while", "condition"] } :=
  setHierarchy_of_perm (.swap "condition" "do_while" [])

theorem setHierarchy_eq_ok {f g : Factory m P} {order : List String}
    (h : f.setHierarchy order = .ok g) :
    order.Perm f.hierarchy ∧ g = { f with hierarchy := order } := by
  rw [setHierarchy_eq] at h
  split at h
  · next perm => exact ⟨perm, (Except.ok.inj h).symm⟩
  · cases h

theorem Coherent.setHierarchy {f g : Factory m P} (hf : f.Coherent) {order : List String}
    (h : f.setHierarchy order = .ok g) : g.Coherent := by
  obtain ⟨perm, rfl⟩ := setHierarchy_eq_ok h
  refine ⟨perm.nodup_iff.2 hf.nodup, fun name => ?_⟩
  rw [perm.mem_iff]
  exact hf.mem_iff name

/-- The table and the list of every factory name the same aliases. -/
theorem Reachable.coherent {f : Factory m P} (h : f.Reachable) : f.Coherent := by
  induction h with
  | empty => exact coherent_empty
  | register _ name make ih => exact ih.register name make
  | unregister _ h ih => exact ih.unregister h
  | setHierarchy _ h ih => exact ih.setHierarchy h
  | setNesting _ nesting ih => exact ⟨ih.nodup, ih.mem_iff⟩

end QuantumControl.Pipeline.Factory
