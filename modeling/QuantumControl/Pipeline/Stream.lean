import QuantumControl.Pipeline.Task

/-! # Task streams

A controller hands its children out one at a time, and is given the current properties with every
pull: so a condition always sees what the tasks before it wrote, and a loop is never written out.

A pull says what it yields together with the reason why pulling comes to an end. The weight of a
stream bounds the size of the tasks it yields, its budget bounds how many more of that weight there
can be. -/

namespace QuantumControl.Pipeline

variable {m : Type → Type} {P : Type}

inductive TaskStream (m : Type → Type) (P : Type) where
  /-- The rest of a list of tasks. -/
  | sequence (rest : List (Task m P))
  /-- A loop over tasks, at a position within a pass; after this pass `left` more may follow. -/
  | loop (tasks : List (Task m P)) (repeats : Predicate m) (ceiling left position : Nat)
  /-- A loop that may not make a single pass. -/
  | overrun (ceiling : Nat)

namespace TaskStream

/-- The stream that yields nothing. It is what is left of a stream after its end, so it stands for
a flag that says that a stream is over: once it is set, no more tasks, failures or decisions. -/
def finished : TaskStream m P := .sequence []

noncomputable def weight : TaskStream m P → Nat
  | sequence rest => sizeOf rest
  | loop tasks _ _ _ _ => sizeOf tasks
  | overrun _ => 0

def budget : TaskStream m P → Nat
  | sequence _ => 0
  | loop tasks _ _ left position => left * tasks.length + (tasks.length - position)
  | overrun _ => 0

/-- A stream has less to yield than another: smaller tasks, or fewer of them. -/
def Less (s t : TaskStream m P) : Prop :=
  s.weight < t.weight ∨ s.weight = t.weight ∧ s.budget < t.budget

/-- What a stream answers to a pull. -/
inductive Pull (s : TaskStream m P) where
  | task (task : Task m P) (rest : TaskStream m P)
      (smaller : sizeOf task < s.weight) (less : rest.Less s)
  | done
  | fail (error : PassError)

namespace Pull

variable {s : TaskStream m P}

def task? : Pull s → Except PassError (Option (Task m P))
  | task t _ _ _ => .ok (some t)
  | done => .ok none
  | fail e => .error e

/-- The stream that is left. After an end, whether for lack of tasks or by a failure, it is the
`finished` one: a stream that is pulled again then yields nothing and evaluates nothing. -/
def rest : Pull s → TaskStream m P
  | task _ r _ _ => r
  | done => finished
  | fail _ => finished

end Pull

section Loop

variable [Monad m] (tasks : List (Task m P)) (repeats : Predicate m) (ceiling left position : Nat)

/-- The decision at the end of a pass after which at most `k` more may follow. -/
def afterPass (outside : tasks[position]? = none) (properties : PropertySet) :
    (k : Nat) → k ≤ left → m (Pull (loop tasks repeats ceiling left position))
  | 0, _ => do
      if ← repeats properties then return .fail (.maxIterationReached ceiling)
      else return .done
  | k + 1, h => do
      if ← repeats properties then
        match first : tasks[0]? with
        | some t =>
            return .task t (.loop tasks repeats ceiling k 1)
              (List.sizeOf_lt_of_mem (List.mem_of_getElem? first))
              (.inr ⟨rfl, by
                have pos : 0 < tasks.length := by
                  rw [List.getElem?_eq_some_iff] at first
                  exact first.1
                have past : tasks.length ≤ position := List.getElem?_eq_none_iff.1 outside
                have := Nat.mul_le_mul_right tasks.length h
                simp only [budget, Nat.sub_eq_zero_of_le past]
                rw [Nat.succ_mul] at this
                omega⟩)
        | none => afterPass outside properties k (by omega)
      else return .done

end Loop

/-- Ask for the next task, with the properties of the moment. -/
def pull [Monad m] (properties : PropertySet) : (s : TaskStream m P) → m (Pull s)
  | sequence [] => return .done
  | sequence (t :: rest) =>
      return .task t (.sequence rest) (by simp only [weight, List.cons.sizeOf_spec]; omega)
        (.inl (by simp only [weight, List.cons.sizeOf_spec]; omega))
  | loop tasks repeats ceiling left position =>
      match here : tasks[position]? with
      | some t =>
          return .task t (.loop tasks repeats ceiling left (position + 1))
            (List.sizeOf_lt_of_mem (List.mem_of_getElem? here))
            (.inr ⟨rfl, by
              rw [List.getElem?_eq_some_iff] at here
              have := here.1
              simp only [budget]
              omega⟩)
      | none => afterPass tasks repeats ceiling left position here properties left (Nat.le_refl _)
  | overrun ceiling => return .fail (.maxIterationReached ceiling)

end TaskStream

namespace Controller

/-- Whether the controller lets its children run; a condition is evaluated here, once. -/
def enters [Monad m] (c : Controller m P) (properties : PropertySet) : m Bool :=
  match c.flow with
  | .condition holds => holds properties
  | .linear | .doWhile _ => return true

/-- The fresh stream of a controller that is, or is not, entered. -/
def stream (c : Controller m P) (entered : Bool) : TaskStream m P :=
  match c.flow, entered, c.options.maxIteration with
  | _, false, _ => .finished
  | .linear, true, _ | .condition _, true, _ => .sequence c.tasks
  | .doWhile _, true, 0 => .overrun 0
  | .doWhile repeats, true, left + 1 => .loop c.tasks repeats (left + 1) left 0

theorem weight_stream_le (c : Controller m P) (entered : Bool) :
    (c.stream entered).weight ≤ sizeOf c.tasks := by
  have : 1 ≤ sizeOf c.tasks := by
    cases c.tasks with
    | nil => simp only [List.nil.sizeOf_spec]; omega
    | cons t ts => simp only [List.cons.sizeOf_spec]; omega
  unfold stream
  split <;> simp [TaskStream.weight, TaskStream.finished, this]

end Controller

end QuantumControl.Pipeline
