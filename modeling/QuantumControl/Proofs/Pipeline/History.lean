import QuantumControl.Proofs.Pipeline.Registry

/-!
# Histories of a registry

A registry is changed by calls, some of which fail.  `Factory.after` is what a list of
calls makes of a factory, and every factory that it leads to is reachable, so that its
priorities are its registered aliases, each once.  From any such factory each call does
exactly what it is for (`Registers`, `Unregisters`), or it fails and changes nothing.
-/

namespace QuantumControl.Pipeline.Factory

variable {m : Type → Type} {P : Type}

/-- The calls that change a registry. -/
inductive Call (m : Type → Type) (P : Type) where
  | register (name : String) (make : Constructor m P)
  | unregister (name : String)
  | setHierarchy (order : List String)
  | setNesting (nesting : NestingOrder)

/-- The factory that a call leads to, or its fault. -/
def step (f : Factory m P) : Call m P → Except PassError (Factory m P)
  | .register name make => .ok (f.register name make)
  | .unregister name => f.unregister name
  | .setHierarchy order => f.setHierarchy order
  | .setNesting nesting => .ok (f.setNesting nesting)

/-- Try a call, with the factory after the attempt. -/
def attempt (f : Factory m P) (call : Call m P) : Except PassError Unit × Factory m P :=
  match f.step call with
  | .ok g => (.ok (), g)
  | .error fault => (.error fault, f)

/-- The factory after calls that were tried one after the other. -/
def after (f : Factory m P) (calls : List (Call m P)) : Factory m P :=
  calls.foldl (fun f call => (f.attempt call).2) f

theorem attempt_of_ok {f g : Factory m P} (call : Call m P) (h : f.step call = .ok g) :
    f.attempt call = (.ok (), g) := by
  rw [attempt, h]

theorem attempt_of_error {f : Factory m P} (call : Call m P) {fault : PassError}
    (h : f.step call = .error fault) : f.attempt call = (.error fault, f) := by
  rw [attempt, h]

/-! ## Reachability -/

theorem Reachable.step {f g : Factory m P} (hf : f.Reachable) {call : Call m P}
    (h : f.step call = .ok g) : g.Reachable := by
  cases call with
  | register name make => exact Except.ok.inj h ▸ hf.register name make
  | unregister name => exact hf.unregister h
  | setHierarchy order => exact hf.setHierarchy h
  | setNesting nesting => exact Except.ok.inj h ▸ hf.setNesting nesting

theorem Reachable.attempt {f : Factory m P} (hf : f.Reachable) (call : Call m P) :
    (f.attempt call).2.Reachable := by
  cases result : f.step call with
  | ok g => exact attempt_of_ok call result ▸ hf.step result
  | error fault => exact attempt_of_error call result ▸ hf

/-- Calls lead from reachable factories to reachable ones, whether they fail or not. -/
theorem Reachable.after {f : Factory m P} (hf : f.Reachable) (calls : List (Call m P)) :
    (f.after calls).Reachable := by
  induction calls generalizing f with
  | nil => exact hf
  | cons call calls ih => exact ih (hf.attempt call)

/-! ## What a call does -/

/-- The alias has the constructor, and nothing else has changed: a known alias is where it was,
and a new one comes last. -/
structure Registers (f : Factory m P) (name : String) (make : Constructor m P)
    (g : Factory m P) : Prop where
  known : name ∈ f.hierarchy → g.hierarchy = f.hierarchy
  new : name ∉ f.hierarchy → g.hierarchy = f.hierarchy ++ [name]
  made : g.constructors.get? name = some make
  others : ∀ other, other ≠ name → g.constructors.get? other = f.constructors.get? other
  nesting : g.nesting = f.nesting

/-- The alias is gone, and nothing else has changed: the others follow each other as before. -/
structure Unregisters (f : Factory m P) (name : String) (g : Factory m P) : Prop where
  hierarchy : g.hierarchy = f.hierarchy.filter (· ≠ name)
  gone : g.constructors.get? name = none
  others : ∀ other, other ≠ name → g.constructors.get? other = f.constructors.get? other
  nesting : g.nesting = f.nesting

theorem registers_register (f : Factory m P) (name : String) (make : Constructor m P) :
    f.Registers name make (f.register name make) where
  known known := if_pos known
  new unknown := if_neg unknown
  made := by rw [register, Table.get?_insert, if_pos rfl]
  others other ne := by rw [register, Table.get?_insert, if_neg ne]
  nesting := rfl

theorem unregister_of_mem {f : Factory m P} {name : String} (known : name ∈ f.hierarchy) :
    f.unregister name =
      .ok { f with constructors := f.constructors.erase name
                   hierarchy := f.hierarchy.erase name } := if_pos known

theorem unregister_of_not_mem {f : Factory m P} {name : String} (unknown : name ∉ f.hierarchy) :
    f.unregister name = .error (.controllerNotFound name) := if_neg unknown

/-- Where every alias has one place, giving up the place removes the alias. -/
theorem Coherent.unregisters {f g : Factory m P} (hf : f.Coherent) {name : String}
    (h : f.unregister name = .ok g) : f.Unregisters name g := by
  obtain ⟨-, rfl⟩ := unregister_eq_ok h
  refine ⟨?_, ?_, fun other ne => ?_, rfl⟩
  · show f.hierarchy.erase name = _
    rw [hf.nodup.erase_eq_filter]
    exact List.filter_congr fun other _ => Bool.eq_iff_iff.2 (by simp)
  · rw [Table.get?_erase, if_pos rfl]
  · rw [Table.get?_erase, if_neg ne]

/-- Whatever was called on a factory that knew nothing or the standard aliases, its priorities are
the aliases that have a constructor, each once.  The next call registers its alias; or removes its
alias, if that is known; or sets priorities, if they are a permutation of those that are set; or
it reports a fault and leaves the factory as it is. -/
theorem after_exact {start : Factory m P} (fresh : start = empty ∨ start = standard)
    (calls : List (Call m P)) :
    let f := start.after calls
    f.hierarchy.Nodup ∧
    (∀ name, name ∈ f.hierarchy ↔ ∃ make, f.constructors.get? name = some make) ∧
    (∀ name make, (f.attempt (.register name make)).1 = .ok () ∧
      f.Registers name make (f.attempt (.register name make)).2) ∧
    (∀ name, name ∈ f.hierarchy → (f.attempt (.unregister name)).1 = .ok () ∧
      f.Unregisters name (f.attempt (.unregister name)).2) ∧
    (∀ name, name ∉ f.hierarchy →
      f.attempt (.unregister name) = (.error (.controllerNotFound name), f)) ∧
    (∀ order, order.Perm f.hierarchy →
      f.attempt (.setHierarchy order) = (.ok (), { f with hierarchy := order })) ∧
    (∀ order, ¬ order.Perm f.hierarchy →
      ∃ text, f.attempt (.setHierarchy order) = (.error (.invalidConfiguration text), f)) ∧
    ∀ call fault, (f.attempt call).1 = .error fault → (f.attempt call).2 = f := by
  intro f
  have reachable : start.Reachable := by
    rcases fresh with rfl | rfl
    · exact .empty
    · exact reachable_standard
  have coherent : f.Coherent := (reachable.after calls).coherent
  refine ⟨coherent.nodup, ?_, ?_, ?_, ?_, ?_, ?_, ?_⟩
  · intro name
    rw [coherent.mem_iff, isRegistered_iff]
  · intro name make
    exact ⟨rfl, f.registers_register name make⟩
  · intro name known
    have done := unregister_of_mem known
    rw [attempt_of_ok (.unregister name) done]
    exact ⟨rfl, coherent.unregisters done⟩
  · intro name unknown
    exact attempt_of_error (.unregister name) (unregister_of_not_mem unknown)
  · intro order perm
    exact attempt_of_ok (.setHierarchy order) (setHierarchy_of_perm perm)
  · intro order h
    exact ⟨_, attempt_of_error (.setHierarchy order) ((f.setHierarchy_eq order).trans (if_neg h))⟩
  · intro call fault failed
    cases result : f.step call with
    | ok g =>
        rw [attempt_of_ok call result] at failed
        cases failed
    | error other => rw [attempt_of_error call result]

/-- A new alias, two calls that fail, other priorities, and an alias that is made in another way. -/
def revised : List (Call Id Nat) :=
  [.register "unless" conditional, .setHierarchy ["unless", "unless", "condition"],
    .unregister "until", .setHierarchy ["unless", "do_while", "condition"], .unregister "do_while",
    .register "unless" doWhile, .setNesting .firstOutermost]

theorem after_exact_revised :
    let f := standard.after revised
    f.hierarchy = ["unless", "condition"] ∧
      (∃ make, f.constructors.get? "unless" = some make) ∧
      f.attempt (.unregister "do_while") = (.error (.controllerNotFound "do_while"), f) ∧
      f.attempt (.setHierarchy ["condition", "unless"]) =
        (.ok (), { f with hierarchy := ["condition", "unless"] }) := by
  intro f
  have places : f.hierarchy = ["unless", "condition"] := by
    simp only [f, after, revised, List.foldl, attempt, step, setHierarchy_eq]
    rfl
  obtain ⟨-, known, -, -, unknown, reorder, -, -⟩ := after_exact (.inr rfl) revised
  refine ⟨places, (known "unless").1 ?_, unknown "do_while" ?_, reorder _ ?_⟩
  · exact places ▸ List.mem_cons_self
  · exact places ▸ by decide
  · exact places ▸ List.Perm.swap _ _ _

end QuantumControl.Pipeline.Factory
