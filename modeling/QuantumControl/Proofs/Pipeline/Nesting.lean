import QuantumControl.Proofs.Pipeline.Registry

/-!
# What a factory builds

Conditions are supplied one after the other, and a later one for the same alias
takes the place of the earlier one.  Checking them walks the conditions against the
table of constructors; putting layers around the base walks the priorities and
passes over every alias that lacks a condition or a constructor.  For a reachable
factory the second walk leaves nothing out that the first one has let through:
there is one layer for each supplied alias, in the order of the priorities, whatever
the order of the conditions.
-/

namespace QuantumControl.Pipeline

variable {m : Type → Type} {P : Type}

/-! ## Conditions in the order of supply -/

/-- Conditions as they are supplied; one may lack its predicate. -/
abbrev Supply (m : Type → Type) := List (String × Option (Predicate m))

namespace Supply

/-- What was supplied last for an alias. -/
def last? (supply : Supply m) (name : String) : Option (Option (Predicate m)) :=
  Table.find name supply.reverse

/-- Whether anything was supplied for an alias. -/
def has (supply : Supply m) (name : String) : Bool := name ∈ supply.map Prod.fst

def conditions (supply : Supply m) : FlowConditions m :=
  supply.foldl (fun c e => c.insert e.1 e.2) .empty

theorem has_iff {supply : Supply m} {name : String} :
    supply.has name ↔ ∃ e ∈ supply, e.1 = name := by
  rw [has, decide_eq_true_iff, List.mem_map]

theorem last?_eq_none_iff {supply : Supply m} {name : String} :
    supply.last? name = none ↔ ¬ supply.has name := by
  rw [last?, Table.find_eq_none_iff, List.map_reverse, List.mem_reverse, has, decide_eq_true_iff]

theorem has_iff_exists_last? {supply : Supply m} {name : String} :
    supply.has name ↔ ∃ supplied, supply.last? name = some supplied := by
  rw [← Option.ne_none_iff_exists', ne_eq, last?_eq_none_iff, Decidable.not_not]

theorem exists_last? {supply : Supply m} {e : String × Option (Predicate m)} (h : e ∈ supply) :
    ∃ supplied, supply.last? e.1 = some supplied :=
  has_iff_exists_last?.1 (has_iff.2 ⟨e, h, rfl⟩)

theorem get?_foldl_insert (supply : Supply m) (c : FlowConditions m) (name : String) :
    (supply.foldl (fun c e => c.insert e.1 e.2) c).entries.get? name =
      (supply.last? name).or (c.entries.get? name) := by
  induction supply generalizing c with
  | nil => rfl
  | cons e supply ih =>
      rw [List.foldl_cons, ih, FlowConditions.insert, Table.get?_insert, last?, last?,
        List.reverse_cons, Table.find_append, Option.or_assoc]
      congr 1
      simp only [Table.find, eq_comm]
      split <;> rfl

/-- The condition of an alias is the one supplied last. -/
theorem get?_conditions (supply : Supply m) (name : String) :
    supply.conditions.get? name = (supply.last? name).join := by
  rw [FlowConditions.get?, conditions, get?_foldl_insert]
  exact congrArg Option.join (Option.or_none)

/-- Aliases are kept in the order of their first supply, so that searching them finds what
searching the whole supply finds. -/
theorem findSome?_foldl_insert {β : Type} (g : String → Option β) (supply : Supply m)
    (c : FlowConditions m) :
    (supply.foldl (fun c e => c.insert e.1 e.2) c).aliases.findSome? g =
      (c.aliases ++ supply.map Prod.fst).findSome? g := by
  induction supply generalizing c with
  | nil => simp
  | cons e supply ih =>
      have aliases : (c.insert e.1 e.2).aliases =
          if e.1 ∈ c.aliases then c.aliases else c.aliases ++ [e.1] := Table.keys_insert _ _ _
      rw [List.foldl_cons, ih, aliases, List.map_cons, List.findSome?_append,
        List.findSome?_append, List.findSome?_cons]
      split
      · next old =>
          cases before : c.aliases.findSome? g with
          | some b => rfl
          | none => rw [List.findSome?_eq_none_iff.1 before e.1 old]
      · rw [List.findSome?_append, Option.or_assoc]
        congr 1
        rw [List.findSome?_cons]
        cases g e.1 <;> rfl

end Supply

theorem FlowConditions.entries_eq (c : FlowConditions m) :
    c.entries.entries = c.aliases.map fun name => (name, c.get? name) := by
  rw [aliases, Table.keys, List.map_map, ← List.map_id c.entries.entries, List.map_map]
  refine List.map_congr_left fun e he => ?_
  show e = (e.1, (c.entries.get? e.1).join)
  rw [Table.get?_of_mem he]
  rfl

namespace Factory

/-! ## Checking the conditions -/

/-- The condition supplied last for an alias has a predicate, and the alias a constructor. -/
def Accepts (f : Factory m P) (supply : Supply m) (name : String) : Prop :=
  (∃ holds, supply.last? name = some (some holds)) ∧ f.isRegistered name

/-- The fault that is reported for an alias; a missing predicate before a missing constructor. -/
inductive Refuses (f : Factory m P) (supply : Supply m) (name : String) : PassError → Prop
  | missing (h : supply.last? name = some none) : Refuses f supply name (.missingPredicate name)
  | unknown {holds : Predicate m} (h : supply.last? name = some (some holds))
      (unregistered : f.isRegistered name = false) :
      Refuses f supply name (.unknownController name)

section Check

variable {f : Factory m P} {supply : Supply m} {e : String × Option (Predicate m)}

theorem fault?_eq_none_iff (mem : e ∈ supply) :
    f.fault? (e.1, (supply.last? e.1).join) = none ↔ f.Accepts supply e.1 := by
  obtain ⟨supplied, last⟩ := Supply.exists_last? mem
  unfold fault? Accepts
  cases supplied with
  | none => simp [last]
  | some holds => simp [last]

theorem fault?_eq_some_iff (mem : e ∈ supply) {fault : PassError} :
    f.fault? (e.1, (supply.last? e.1).join) = some fault ↔ f.Refuses supply e.1 fault := by
  obtain ⟨supplied, last⟩ := Supply.exists_last? mem
  unfold fault?
  constructor
  · intro h
    cases supplied with
    | none =>
        simp [last] at h
        exact h ▸ .missing last
    | some holds =>
        cases registered : f.isRegistered e.1 with
        | true => simp [last, registered] at h
        | false =>
            simp [last, registered] at h
            exact h ▸ .unknown last registered
  · rintro (last | ⟨last, unregistered⟩)
    · simp [last]
    · simp [last, unregistered]

/-- What the check finds in the conditions, it finds in the supply. -/
theorem findSome?_fault? (f : Factory m P) (supply : Supply m) :
    supply.conditions.entries.entries.findSome? f.fault? =
      supply.findSome? fun e => f.fault? (e.1, (supply.last? e.1).join) := by
  rw [FlowConditions.entries_eq, List.findSome?_map, Supply.conditions,
    Supply.findSome?_foldl_insert, ← Supply.conditions]
  show List.findSome? _ (supply.map Prod.fst) = _
  rw [List.findSome?_map]
  congr 1
  funext e
  exact congrArg (fun holds => f.fault? (e.1, holds)) (Supply.get?_conditions supply e.1)

end Check

/-! ## Layers -/

/-- What a factory puts layers around. -/
def TaskSet.base (fresh : Nat) (options : ControllerOptions) : TaskSet m P → Controller m P
  | .controller c => c
  | .tasks ts => ⟨⟨fresh⟩, .linear, options, ts⟩

/-- The supplied aliases from the innermost layer to the outermost. -/
def layerOrder (f : Factory m P) (supply : Supply m) : List String :=
  let supplied := f.hierarchy.filter supply.has
  match f.nesting with
  | .lastOutermost => supplied
  | .firstOutermost => supplied.reverse

/-- A base within one layer for each alias of a list, the innermost first: the registered
constructor, around the one controller that is there, with the predicate supplied last. -/
inductive Nested (f : Factory m P) (supply : Supply m) (fresh : Nat) (options : ControllerOptions)
    (base : Controller m P) : List String → Controller m P → Prop
  | base : Nested f supply fresh options base [] base
  | layer {order : List String} {inner : Controller m P} {name : String}
      {make : Constructor m P} {holds : Predicate m}
      (h : Nested f supply fresh options base order inner)
      (registered : f.constructors.get? name = some make)
      (supplied : supply.last? name = some (some holds)) :
      Nested f supply fresh options base (order ++ [name])
        (make ⟨fresh + 1 + order.length⟩ [inner.toTask] holds options)

theorem layerOrder_eq (f : Factory m P) (supply : Supply m) :
    f.layerOrder supply = f.innermostFirst.filter supply.has := by
  unfold layerOrder innermostFirst
  cases f.nesting with
  | lastOutermost => rfl
  | firstOutermost => exact List.filter_reverse.symm

theorem mem_innermostFirst {f : Factory m P} {name : String} :
    name ∈ f.innermostFirst ↔ name ∈ f.hierarchy := by
  unfold innermostFirst
  cases f.nesting with
  | lastOutermost => exact Iff.rfl
  | firstOutermost => exact List.mem_reverse

/-- Each supplied alias that is registered has its place among the layers. -/
theorem Coherent.mem_layerOrder {f : Factory m P} (hf : f.Coherent) {supply : Supply m}
    (accepts : ∀ e ∈ supply, f.Accepts supply e.1) (name : String) :
    name ∈ f.layerOrder supply ↔ ∃ e ∈ supply, e.1 = name := by
  rw [layerOrder_eq, List.mem_filter, mem_innermostFirst, hf.mem_iff, Supply.has_iff]
  constructor
  · exact And.right
  · rintro ⟨e, he, rfl⟩
    exact ⟨(accepts e he).2, e, he, rfl⟩

theorem Coherent.nodup_layerOrder {f : Factory m P} (hf : f.Coherent) (supply : Supply m) :
    (f.layerOrder supply).Nodup := by
  have once : (f.hierarchy.filter supply.has).Nodup :=
    hf.nodup.sublist List.filter_sublist
  unfold layerOrder
  cases f.nesting with
  | lastOutermost => exact once
  | firstOutermost => exact (List.reverse_perm _).nodup_iff.2 once

/-- The layer of an alias, if it has a condition and a constructor. -/
def layer? (f : Factory m P) (conditions : FlowConditions m) (name : String) :
    Option (Constructor m P × Predicate m) :=
  match conditions.get? name, f.constructors.get? name with
  | some holds, some make => some (make, holds)
  | _, _ => none

/-- Walking aliases puts a layer for each one that is supplied.  The induction is on the aliases
still to come; `done` are those whose layers are there. -/
theorem nested_wrap {f : Factory m P} {supply : Supply m} {fresh : Nat}
    {options : ControllerOptions} {base : Controller m P}
    (accepts : ∀ e ∈ supply, f.Accepts supply e.1) (names : List String) {done : List String}
    {inner : Controller m P} (h : f.Nested supply fresh options base done inner) :
    f.Nested supply fresh options base
      (done ++ names.filter supply.has)
      (wrap options (fresh + 1 + done.length) inner
        (names.filterMap (f.layer? supply.conditions))) := by
  induction names generalizing done inner with
  | nil => simpa [wrap] using h
  | cons name names ih =>
      by_cases supplied : supply.has name
      · obtain ⟨e, he, rfl⟩ := Supply.has_iff.1 supplied
        obtain ⟨⟨holds, last⟩, registered⟩ := accepts e he
        obtain ⟨make, made⟩ := isRegistered_iff.1 registered
        have layer : f.layer? supply.conditions e.1 = some (make, holds) := by
          rw [layer?, Supply.get?_conditions, last, made]
          rfl
        have next := ih (h.layer made last)
        rw [List.filterMap_cons, layer, List.filter_cons_of_pos supplied]
        simpa [wrap, Nat.add_assoc] using next
      · have layer : f.layer? supply.conditions name = none := by
          rw [layer?, Supply.get?_conditions, Supply.last?_eq_none_iff.2 supplied]
          rfl
        rw [List.filterMap_cons, layer, List.filter_cons_of_neg supplied]
        exact ih h

/-! ## Building -/

section Build

variable {f : Factory m P} {supply : Supply m}

theorem build_eq (f : Factory m P) (fresh : Nat) (tasks : TaskSet m P)
    (options : ControllerOptions) (supply : Supply m) :
    f.build fresh tasks options supply.conditions =
      match supply.findSome? fun e => f.fault? (e.1, (supply.last? e.1).join) with
      | some fault => .error fault
      | none => .ok (wrap options (fresh + 1) (TaskSet.base fresh options tasks)
          (f.innermostFirst.filterMap (f.layer? supply.conditions))) := by
  unfold build
  rw [findSome?_fault?]
  rfl

/-- The first supplied alias that is not accepted decides the fault. -/
theorem build_eq_error_iff {fresh : Nat} {tasks : TaskSet m P} {options : ControllerOptions}
    {fault : PassError} :
    f.build fresh tasks options supply.conditions = .error fault ↔
      ∃ before e after, supply = before ++ e :: after ∧
        (∀ b ∈ before, f.Accepts supply b.1) ∧ f.Refuses supply e.1 fault := by
  have found : f.build fresh tasks options supply.conditions = .error fault ↔
      (supply.findSome? fun e => f.fault? (e.1, (supply.last? e.1).join)) = some fault := by
    rw [build_eq]
    split
    · next other h => rw [h, Except.error.injEq, Option.some.injEq]
    · next h => rw [h]; exact ⟨(nomatch ·), (nomatch ·)⟩
  rw [found, List.findSome?_eq_some_iff]
  constructor
  · rintro ⟨before, e, after, split, here, clear⟩
    have mem : e ∈ supply := split ▸ List.mem_append_right _ List.mem_cons_self
    refine ⟨before, e, after, split, fun b hb => ?_, (fault?_eq_some_iff mem).1 here⟩
    exact (fault?_eq_none_iff (split ▸ List.mem_append_left _ hb)).1 (clear b hb)
  · rintro ⟨before, e, after, split, clear, here⟩
    have mem : e ∈ supply := split ▸ List.mem_append_right _ List.mem_cons_self
    refine ⟨before, e, after, split, (fault?_eq_some_iff mem).2 here, fun b hb => ?_⟩
    exact (fault?_eq_none_iff (split ▸ List.mem_append_left _ hb)).2 (clear b hb)

theorem not_accepts_iff {e : String × Option (Predicate m)} (mem : e ∈ supply) :
    ¬ f.Accepts supply e.1 ↔
      supply.last? e.1 = some none ∨ f.isRegistered e.1 = false := by
  obtain ⟨supplied, last⟩ := Supply.exists_last? mem
  unfold Accepts
  cases supplied with
  | none => simp [last]
  | some holds => simp [last]

theorem build_eq_ok_iff {fresh : Nat} {tasks : TaskSet m P} {options : ControllerOptions}
    {c : Controller m P} :
    f.build fresh tasks options supply.conditions = .ok c ↔
      (∀ e ∈ supply, f.Accepts supply e.1) ∧
        c = wrap options (fresh + 1) (TaskSet.base fresh options tasks)
          (f.innermostFirst.filterMap (f.layer? supply.conditions)) := by
  have passed : (supply.findSome? fun e => f.fault? (e.1, (supply.last? e.1).join)) = none ↔
      ∀ e ∈ supply, f.Accepts supply e.1 := by
    rw [List.findSome?_eq_none_iff]
    exact forall₂_congr fun e he => fault?_eq_none_iff he
  rw [build_eq, ← passed]
  split
  · next fault h => rw [h]; exact ⟨(nomatch ·), (nomatch ·)⟩
  · next h =>
      rw [h]
      exact ⟨fun e => ⟨rfl, (Except.ok.inj e).symm⟩, fun e => e.2 ▸ rfl⟩

/-- What is built depends on what was supplied last for each alias alone. -/
theorem build_eq_ok_of_last {other : Supply m}
    (same : ∀ name, other.last? name = supply.last? name) {fresh : Nat} {tasks : TaskSet m P}
    {options : ControllerOptions} {c : Controller m P}
    (h : f.build fresh tasks options supply.conditions = .ok c) :
    f.build fresh tasks options other.conditions = .ok c := by
  obtain ⟨accepts, rfl⟩ := build_eq_ok_iff.1 h
  refine build_eq_ok_iff.2 ⟨fun e he => ?_, ?_⟩
  · obtain ⟨supplied, last⟩ := Supply.exists_last? he
    have known : supply.has e.1 := Supply.has_iff_exists_last?.2 ⟨supplied, same e.1 ▸ last⟩
    obtain ⟨b, hb, name⟩ := Supply.has_iff.1 known
    have accepted := accepts b hb
    rw [Accepts, name] at accepted
    rw [Accepts, same]
    exact accepted
  · have layers : f.layer? other.conditions = f.layer? supply.conditions := by
      funext name
      rw [layer?, layer?, Supply.get?_conditions, Supply.get?_conditions, same]
    rw [layers]

end Build

/-- Building with a reachable factory fails if and only if an alias lacks its predicate or its
constructor, and the first such alias in the order of supply decides the fault.  Otherwise it puts
one layer for each supplied alias around the base, in the order of the priorities; conditions that
agree in what they supply last build the same. -/
theorem build_exact {f : Factory m P} (hf : f.Reachable) (fresh : Nat) (tasks : TaskSet m P)
    (options : ControllerOptions) (supply : Supply m) :
    ((∃ fault, f.build fresh tasks options supply.conditions = .error fault) ↔
      ∃ e ∈ supply, supply.last? e.1 = some none ∨ f.isRegistered e.1 = false) ∧
    (∀ fault, f.build fresh tasks options supply.conditions = .error fault ↔
      ∃ before e after, supply = before ++ e :: after ∧
        (∀ b ∈ before, f.Accepts supply b.1) ∧ f.Refuses supply e.1 fault) ∧
    ((∀ e ∈ supply, f.Accepts supply e.1) →
      ∃ c, f.build fresh tasks options supply.conditions = .ok c ∧
        f.Nested supply fresh options (TaskSet.base fresh options tasks) (f.layerOrder supply) c ∧
        (f.layerOrder supply).Nodup ∧
        ∀ name, name ∈ f.layerOrder supply ↔ ∃ e ∈ supply, e.1 = name) ∧
    ∀ other : Supply m, (∀ name, other.last? name = supply.last? name) →
      ∀ c, f.build fresh tasks options supply.conditions = .ok c →
        f.build fresh tasks options other.conditions = .ok c := by
  refine ⟨⟨?_, ?_⟩, fun _ => build_eq_error_iff, fun accepts => ?_,
    fun other same c => build_eq_ok_of_last same⟩
  · rintro ⟨fault, h⟩
    obtain ⟨before, e, after, split, -, refuses⟩ := build_eq_error_iff.1 h
    refine ⟨e, split ▸ List.mem_append_right _ List.mem_cons_self, ?_⟩
    cases refuses with
    | missing last => exact .inl last
    | unknown last unregistered => exact .inr unregistered
  · rintro ⟨e, he, bad⟩
    cases built : f.build fresh tasks options supply.conditions with
    | error fault => exact ⟨fault, rfl⟩
    | ok c => exact absurd ((build_eq_ok_iff.1 built).1 e he) ((not_accepts_iff he).2 bad)
  · have start : f.Nested supply fresh options (TaskSet.base fresh options tasks) []
        (TaskSet.base fresh options tasks) := .base
    have nested := nested_wrap accepts f.innermostFirst start
    rw [← layerOrder_eq] at nested
    exact ⟨_, build_eq_ok_iff.2 ⟨accepts, rfl⟩, nested, hf.coherent.nodup_layerOrder supply,
      hf.coherent.mem_layerOrder accepts⟩

/-- With the priorities of the built-in aliases exchanged the condition wraps the loop.  Its
predicate is the one supplied last, and its place in the supply plays no part. -/
theorem build_exchanged :
    let f : Factory Id Nat := { standard with hierarchy := ["do_while", "condition"] }
    let supply : Supply Id :=
      [("condition", none), ("do_while", some fun _ => false), ("condition", some fun _ => true)]
    f.Reachable ∧ (∀ e ∈ supply, f.Accepts supply e.1) ∧
      ∃ c, f.build 0 (.tasks []) {} supply.conditions = .ok c ∧
        f.Nested supply 0 {} ⟨⟨0⟩, .linear, {}, []⟩ ["do_while", "condition"] c := by
  intro f supply
  have reachable : f.Reachable := .setHierarchy reachable_standard setHierarchy_standard
  have accepts : ∀ e ∈ supply, f.Accepts supply e.1 :=
    List.forall_mem_cons.2 ⟨⟨⟨_, rfl⟩, rfl⟩, List.forall_mem_cons.2 ⟨⟨⟨_, rfl⟩, rfl⟩,
      List.forall_mem_cons.2 ⟨⟨⟨_, rfl⟩, rfl⟩, List.forall_mem_nil _⟩⟩⟩
  obtain ⟨-, -, built, -⟩ := build_exact reachable 0 (.tasks []) {} supply
  obtain ⟨c, result, nested, -⟩ := built accepts
  exact ⟨reachable, accepts, c, result, nested⟩

end Factory

end QuantumControl.Pipeline
