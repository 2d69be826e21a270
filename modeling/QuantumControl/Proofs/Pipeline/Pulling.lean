import Mathlib.Order.Bounds.Basic
import QuantumControl.Proofs.Pipeline.Machine

/-!
# A loop that is pulled one task at a time

Who pulls a stream may hand in any properties with every pull.  A loop looks at them when
a pass is over and at no other time: the pull that comes after the last task of a pass is
answered as the first pull of a fresh pass, unless the loop stops there or its ceiling is
reached (`pulled_fresh`).  That holds also of a loop over no tasks, all whose passes are
over before the first pull is answered.

The predicate may read and write a state.  The state that a pull leaves is that after the
evaluations so far, so it tells how often the predicate was evaluated, on which pulls and
on which properties.

A stream says that it is over by having nothing left.  `pulled_counted` says the same with
the flag of a counter: the pulls of a loop are the rounds that its counter makes from a fresh
one on, and once the flag is set neither the counter nor the state changes any more.
-/

namespace QuantumControl.Pipeline

namespace TaskStream

variable {σ P : Type}

/-! ## Pulls in a row -/

/-- What a stream answers when it is pulled again and again, the `k`-th time with the properties
`props k`; every answer with the state that is left. -/
def pulled (s : TaskStream (StateM σ) P) (props : Nat → PropertySet) (state : σ) :
    Nat → Answer (StateM σ) P × σ
  | 0 => (s.answer (props 0)).run state
  | k + 1 => ((s.pulled props state k).1.2.answer (props (k + 1))).run (s.pulled props state k).2

section Pulled

variable {s : TaskStream (StateM σ) P} {props : Nat → PropertySet} {state : σ} {k : Nat}

/-- The next pull is one of the stream that is left, from the state that is left. -/
theorem pulled_succ {yielded : Except PassError (Option (Task (StateM σ) P))}
    {rest : TaskStream (StateM σ) P} {st : σ}
    (h : s.pulled props state k = ((yielded, rest), st)) :
    s.pulled props state (k + 1) = (rest.answer (props (k + 1))).run st := by
  rw [pulled, h]

/-- After its end a stream yields nothing, and leaves the state alone. -/
theorem pulled_of_finished {yielded : Except PassError (Option (Task (StateM σ) P))} {st : σ}
    (ended : s.pulled props state k = ((yielded, finished), st)) {later : Nat} (h : k < later) :
    s.pulled props state later = ((.ok none, finished), st) := by
  induction later, h using Nat.le_induction with
  | base => rw [pulled_succ ended, finished, answer_sequence_nil]; rfl
  | succ later _ ih => rw [pulled_succ ih, finished, answer_sequence_nil]; rfl

end Pulled

/-! ## Decisions -/

/-- The evaluations at the ends of the passes, the `j`-th on the pull that comes after `j` passes of
`length` tasks; every one with the state that it leaves. -/
def asked (repeats : Predicate (StateM σ)) (props : Nat → PropertySet) (length : Nat) (state : σ) :
    Nat → Bool × σ
  | 0 => (true, state)
  | j + 1 => (repeats (props ((j + 1) * length))).run (asked repeats props length state j).2

section Loop

variable {tasks : List (Task (StateM σ) P)} {repeats : Predicate (StateM σ)} {ceiling left : Nat}
variable {p : PropertySet} {st after : σ}

theorem run_decision_of_false (stops : (repeats p).run st = (false, after)) (left : Nat) :
    (decision tasks repeats ceiling p left).run st = ((.ok none, finished), after) := by
  cases left <;> rw [decision, StateT.run_bind, stops] <;> rfl

theorem run_decision_zero (again : (repeats p).run st = (true, after)) :
    (decision tasks repeats ceiling p 0).run st =
      ((.error (.maxIterationReached ceiling), finished), after) := by
  rw [decision, StateT.run_bind, again]
  rfl

theorem run_decision_succ (again : (repeats p).run st = (true, after)) (left : Nat) :
    (decision tasks repeats ceiling p (left + 1)).run st =
      ((loop tasks repeats ceiling left 0).answer p).run after := by
  rw [decision, StateT.run_bind, again]
  rfl

/-! ## Passes -/

section Pass

variable {s : TaskStream (StateM σ) P} {props : Nat → PropertySet} {state : σ} {start : Nat}

/-- Within a pass every pull moves the loop on by one task. -/
theorem pulled_pass
    (fresh : s.pulled props state start =
      ((loop tasks repeats ceiling left 0).answer (props start)).run st)
    {q : Nat} (h : q ≤ tasks.length) :
    s.pulled props state (start + q) =
      ((loop tasks repeats ceiling left q).answer (props (start + q))).run st := by
  induction q with
  | zero => exact fresh
  | succ q ih =>
      have here : tasks[q]? = some tasks[q] := List.getElem?_eq_getElem h
      have yielded := ih (Nat.le_of_succ_le h)
      rw [answer_loop_of_getElem? tasks repeats ceiling here] at yielded
      exact pulled_succ yielded

/-- A pass yields its tasks in order and evaluates nothing. -/
theorem pulled_within
    (fresh : s.pulled props state start =
      ((loop tasks repeats ceiling left 0).answer (props start)).run st)
    {q : Nat} (h : q < tasks.length) :
    s.pulled props state (start + q) =
      ((.ok tasks[q]?, loop tasks repeats ceiling left (q + 1)), st) := by
  have here : tasks[q]? = some tasks[q] := List.getElem?_eq_getElem h
  rw [pulled_pass fresh h.le, answer_loop_of_getElem? tasks repeats ceiling here, here]
  rfl

/-- The pull after a pass is answered by the decision at its end. -/
theorem pulled_past
    (fresh : s.pulled props state start =
      ((loop tasks repeats ceiling left 0).answer (props start)).run st) :
    s.pulled props state (start + tasks.length) =
      (decision tasks repeats ceiling (props (start + tasks.length)) left).run st := by
  rw [pulled_pass fresh (Nat.le_refl _), answer_loop_of_past tasks repeats ceiling (by simp)]

end Pass

/-! ## Runs of passes -/

section Runs

variable {props : Nat → PropertySet} {state : σ}

/-- The loop goes on after each of the first `j` passes. -/
def GoesOn (asked : Nat → Bool × σ) (j : Nat) : Prop := ∀ h, 0 < h → h ≤ j → (asked h).1 = true

theorem GoesOn.mono {asked : Nat → Bool × σ} {i j : Nat} (h : GoesOn asked j) (le : i ≤ j) :
    GoesOn asked i := fun k pos below => h k pos (below.trans le)

/-- Before the first evaluation that is false all are true. -/
theorem goesOn_of_lt {asked : Nat → Bool × σ} {i j : Nat}
    (first : IsLeast {j | 0 < j ∧ (asked j).1 = false} i) (h : j < i) : GoesOn asked j :=
  fun _ pos below =>
    Bool.of_not_eq_false fun stops => (below.trans_lt h).not_ge (first.2 ⟨pos, stops⟩)

/-- After passes at whose ends the loop goes on, the next pull is answered by a fresh pass. -/
theorem pulled_fresh (ceiling : Nat) {j : Nat}
    (goesOn : GoesOn (asked repeats props tasks.length state) j) (h : j ≤ left) :
    (loop tasks repeats ceiling left 0).pulled props state (j * tasks.length) =
      ((loop tasks repeats ceiling (left - j) 0).answer (props (j * tasks.length))).run
        (asked repeats props tasks.length state j).2 := by
  induction j with
  | zero => rw [Nat.zero_mul]; rfl
  | succ j ih =>
      have fresh := ih (goesOn.mono j.le_succ) (Nat.le_of_succ_le h)
      have again := goesOn (j + 1) j.succ_pos (Nat.le_refl _)
      obtain ⟨fewer, more⟩ : ∃ fewer, left - j = fewer + 1 := ⟨left - (j + 1), by omega⟩
      rw [Nat.succ_mul, pulled_past fresh, more, ← Nat.succ_mul,
        run_decision_succ (Prod.ext again rfl), show left - (j + 1) = fewer by omega]
      rfl

/-- What a stream yields is some passes of tasks, then a last answer, then nothing.  The state is
that after one evaluation for each pass that is over, on the properties of the pull after it. -/
structure Yields (tasks : List (Task (StateM σ) P)) (asked : Nat → Bool × σ) (passes : Nat)
    (last : Except PassError (Option (Task (StateM σ) P)))
    (pulled : Nat → Answer (StateM σ) P × σ) : Prop where
  within : ∀ k < passes * tasks.length,
    (pulled k).1.1 = .ok tasks[k % tasks.length]? ∧
      (pulled k).2 = (asked (k / tasks.length)).2
  last : (pulled (passes * tasks.length)).1.1 = last ∧
    (pulled (passes * tasks.length)).2 = (asked passes).2
  after : ∀ k > passes * tasks.length,
    (pulled k).1.1 = .ok none ∧ (pulled k).2 = (asked passes).2

/-- After the last answer there is nothing more to say. -/
theorem yields_of_finished {s : TaskStream (StateM σ) P} {asked : Nat → Bool × σ} {passes : Nat}
    {last : Except PassError (Option (Task (StateM σ) P))}
    (within : ∀ k < passes * tasks.length,
      (s.pulled props state k).1.1 = .ok tasks[k % tasks.length]? ∧
        (s.pulled props state k).2 = (asked (k / tasks.length)).2)
    (ended : s.pulled props state (passes * tasks.length) =
      ((last, finished), (asked passes).2)) :
    Yields tasks asked passes last (s.pulled props state) := by
  refine ⟨within, ?_, fun k later => ?_⟩
  · rw [ended]
    exact ⟨rfl, rfl⟩
  · rw [pulled_of_finished ended later]
    exact ⟨rfl, rfl⟩

/-- A loop that goes on after `j` passes and ends after the next one. -/
theorem yields_loop {j : Nat} (goesOn : GoesOn (asked repeats props tasks.length state) j)
    (h : j ≤ left) {last : Except PassError (Option (Task (StateM σ) P))}
    (ends : (decision tasks repeats ceiling (props ((j + 1) * tasks.length)) (left - j)).run
      (asked repeats props tasks.length state j).2 =
        ((last, finished), (asked repeats props tasks.length state (j + 1)).2)) :
    Yields tasks (asked repeats props tasks.length state) (j + 1) last
      ((loop tasks repeats ceiling left 0).pulled props state) := by
  refine yields_of_finished (fun k inside => ?_) ?_
  · have pos : 0 < tasks.length := Nat.pos_of_mul_pos_left (Nat.zero_lt_of_lt inside)
    have pass : k / tasks.length ≤ j := Nat.le_of_lt_succ ((Nat.div_lt_iff_lt_mul pos).2 inside)
    have fresh := pulled_fresh ceiling (goesOn.mono pass) (pass.trans h)
    have here := pulled_within fresh (Nat.mod_lt k pos)
    rw [Nat.div_add_mod' k tasks.length] at here
    rw [here]
    exact ⟨rfl, rfl⟩
  · rw [Nat.succ_mul, pulled_past (pulled_fresh ceiling goesOn h), ← Nat.succ_mul]
    exact ends

/-- A loop that may make `left + 1` passes makes as many as it goes on for, if they are no more. -/
theorem yields_of_stop {i : Nat}
    (first : IsLeast {j | 0 < j ∧ (asked repeats props tasks.length state j).1 = false} i)
    (h : i ≤ left + 1) :
    Yields tasks (asked repeats props tasks.length state) i (.ok none)
      ((loop tasks repeats ceiling left 0).pulled props state) := by
  obtain ⟨pos, stops⟩ := first.1
  obtain ⟨j, rfl⟩ := Nat.exists_eq_add_one.2 pos
  exact yields_loop (goesOn_of_lt first j.lt_succ_self) (Nat.le_of_succ_le_succ h)
    (run_decision_of_false (Prod.ext stops rfl) _)

/-- A loop that may make `left + 1` passes and goes on after all of them fails for its ceiling. -/
theorem yields_of_overrun
    (goesOn : GoesOn (asked repeats props tasks.length state) (left + 1)) :
    Yields tasks (asked repeats props tasks.length state) (left + 1)
      (.error (.maxIterationReached ceiling))
      ((loop tasks repeats ceiling left 0).pulled props state) := by
  refine yields_loop (goesOn.mono left.le_succ) (Nat.le_refl _) ?_
  have again := goesOn (left + 1) left.succ_pos (Nat.le_refl _)
  rw [Nat.sub_self]
  exact run_decision_zero (Prod.ext again rfl)

/-- A loop that may make no pass fails at once. -/
theorem yields_overrun (ceiling : Nat) (tasks : List (Task (StateM σ) P))
    (props : Nat → PropertySet) (asked : Nat → Bool × σ) (start : (asked 0).2 = state) :
    Yields tasks asked 0 (.error (.maxIterationReached ceiling))
      ((overrun ceiling).pulled props state) := by
  refine yields_of_finished (fun k inside => ?_) ?_
  · rw [Nat.zero_mul] at inside
    exact absurd inside k.not_lt_zero
  · rw [Nat.zero_mul, pulled, answer_overrun, start]
    rfl

end Runs

end Loop

end TaskStream

open TaskStream

/-- A do-while loop is entered without an evaluation.  Whatever properties are handed in with the
pulls, it yields its tasks in order again and again, and evaluates its predicate on the pull
after each pass only, on the properties of that pull.  If the first evaluation that is false is the
`i`-th, there are `i` passes and then no more tasks, unless the ceiling is lower: then there are as
many passes as it allows, and a failure.  A ceiling of zero fails the first pull.  After the end
nothing is yielded, and nothing is evaluated. -/
theorem doWhile_pulled {σ P : Type} (repeats : Predicate (StateM σ)) (id : TaskId)
    (options : ControllerOptions) (tasks : List (Task (StateM σ) P)) (props : Nat → PropertySet)
    (state : σ) :
    let c : Controller (StateM σ) P := ⟨id, .doWhile repeats, options, tasks⟩
    let asked := asked repeats props tasks.length state
    let pulled := (c.stream true).pulled props state
    (∀ p, c.enters p = pure true) ∧
    (options.maxIteration = 0 →
      Yields tasks asked 0 (.error (.maxIterationReached 0)) pulled) ∧
    (∀ i, IsLeast {j | 0 < j ∧ (asked j).1 = false} i →
      if i ≤ options.maxIteration then Yields tasks asked i (.ok none) pulled
      else Yields tasks asked options.maxIteration
        (.error (.maxIterationReached options.maxIteration)) pulled) ∧
    ((∀ j, 0 < j → (asked j).1 = true) →
      Yields tasks asked options.maxIteration
        (.error (.maxIterationReached options.maxIteration)) pulled) := by
  obtain ⟨_ | left⟩ := options
  · have overrun := yields_overrun 0 tasks props (asked repeats props tasks.length state) rfl
    refine ⟨fun _ => rfl, fun _ => overrun, fun i first => ?_, fun _ => overrun⟩
    rw [if_neg (Nat.not_le.2 first.1.1)]
    exact overrun
  · refine ⟨fun _ => rfl, nofun, fun i first => ?_, fun goesOn =>
      yields_of_overrun fun j pos _ => goesOn j pos⟩
    split
    · next allowed => exact yields_of_stop first allowed
    · next exceeded => exact yields_of_overrun (goesOn_of_lt first (Nat.not_le.1 exceeded))

/-- The predicate turns false after the second pass of two tasks.  A ceiling of two still allows
that pass, one of one does not; the predicate that logs what it is asked about is asked on the pull
after each pass, and on no other one. -/
theorem doWhile_pulled_ceiling :
    let repeats : Predicate (StateM (List Bool)) := fun p => do
      modify (· ++ [p.contains "stop"])
      return !p.contains "stop"
    let first : Task (StateM (List Bool)) Unit := .controller ⟨1⟩ .linear {} []
    let second : Task (StateM (List Bool)) Unit := .controller ⟨2⟩ .linear {} []
    let props : Nat → PropertySet := fun k =>
      if k = 4 then PropertySet.empty.set "stop" (.bool true) else PropertySet.empty
    let pulled : Nat → Nat → Answer (StateM (List Bool)) Unit × List Bool := fun ceiling =>
      ((⟨⟨3⟩, .doWhile repeats, ⟨ceiling⟩, [first, second]⟩ :
        Controller (StateM (List Bool)) Unit).stream true).pulled props []
    ((pulled 2 1).1.1 = .ok (some second) ∧ (pulled 2 1).2 = []) ∧
    ((pulled 2 2).1.1 = .ok (some first) ∧ (pulled 2 2).2 = [false]) ∧
    ((pulled 2 4).1.1 = .ok none ∧ (pulled 2 4).2 = [false, true]) ∧
    ((pulled 1 2).1.1 = .error (.maxIterationReached 1) ∧ (pulled 1 2).2 = [false]) ∧
    ∀ ceiling, 2 ≤ ceiling → ∀ k > 4,
      (pulled ceiling k).1.1 = .ok none ∧ (pulled ceiling k).2 = [false, true] := by
  intro repeats first second props pulled
  have least : IsLeast {j | 0 < j ∧ (asked repeats props 2 [] j).1 = false} 2 := by
    refine ⟨⟨by decide, rfl⟩, fun j stops => ?_⟩
    obtain ⟨pos, stops⟩ := stops
    by_contra below
    obtain rfl : j = 1 := by omega
    cases stops
  have yields (ceiling : Nat) :=
    (doWhile_pulled repeats ⟨3⟩ ⟨ceiling⟩ [first, second] props []).2.2.1 2 least
  have exact : Yields [first, second] (asked repeats props 2 []) 2 (.ok none) (pulled 2) := by
    simpa using yields 2
  have tooMany := yields 1
  rw [if_neg (by decide)] at tooMany
  have notYet : (asked repeats props 2 [] 0).2 = [] := rfl
  have once : (asked repeats props 2 [] 1).2 = [false] := rfl
  refine ⟨?_, ?_, exact.last, tooMany.last, fun ceiling allowed k later => ?_⟩
  · simpa [notYet] using exact.within 1 (by decide)
  · simpa [once] using exact.within 2 (by decide)
  · have yielded := yields ceiling
    rw [if_pos allowed] at yielded
    exact yielded.after k later

/-! ## The counter behind a loop -/

namespace Counter

variable {σ P : Type} {tasks : List (Task (StateM σ) P)} {ceiling : UInt64}

/-- What a counter and a state answer to a pull, and what they are after it: they make rounds until
one has a result. -/
inductive Pulls (tasks : List (Task (StateM σ) P)) (ceiling : UInt64) (again : StateM σ Bool) :
    Counter × σ → Except PassError (Option (Task (StateM σ) P)) → Counter × σ → Prop
  | result {c after : Counter} {st st' : σ} {round : Round (StateM σ) P}
      {answer : Except PassError (Option (Task (StateM σ) P))}
      (made : (c.next tasks ceiling again).run st = ((round, after), st'))
      (answers : round.result? = some answer) :
      Pulls tasks ceiling again (c, st) answer (after, st')
  | repeats {c after : Counter} {st st' : σ}
      {answer : Except PassError (Option (Task (StateM σ) P))} {last : Counter × σ}
      (made : (c.next tasks ceiling again).run st = ((.repeats, after), st'))
      (rest : Pulls tasks ceiling again (after, st') answer last) :
      Pulls tasks ceiling again (c, st) answer last

theorem move_of_run {again : StateM σ Bool} {c : Counter} {st st' : σ}
    {r : Round (StateM σ) P × Counter} (made : (c.next tasks ceiling again).run st = (r, st')) :
    c.Move tasks ceiling r := by
  have move := (surely_next tasks ceiling again c).run st
  rwa [made] at move

section Pulls

variable {again : StateM σ Bool} {start last : Counter × σ}
  {answer : Except PassError (Option (Task (StateM σ) P))}

/-- A pull sets the flag unless it yields a task. -/
theorem Pulls.finished_iff (h : Pulls tasks ceiling again start answer last) :
    last.1.finished = true ↔ ∀ t, answer ≠ .ok (some t) := by
  induction h with
  | result made answers =>
      have move := move_of_run made
      cases move with
      | finished ended => cases answers; exact iff_of_true ended nofun
      | overrun => cases answers; exact iff_of_true rfl nofun
      | ends => cases answers; exact iff_of_true rfl nofun
      | fails => cases answers; exact iff_of_true rfl nofun
      | repeats => cases answers
      | yields unfinished =>
          cases answers
          exact iff_of_false (Bool.eq_false_iff.1 unfinished) fun none => none _ rfl
  | repeats _ _ ih => exact ih

/-- Where the flag is set a pull yields nothing, and leaves everything as it is. -/
theorem Pulls.of_finished (h : Pulls tasks ceiling again start answer last)
    (ended : start.1.finished = true) : answer = .ok none ∧ last = start := by
  cases h with
  | result made answers =>
      rw [next_of_finished again ended] at made
      cases made
      exact ⟨(Option.some.inj answers).symm, rfl⟩
  | repeats made =>
      rw [next_of_finished again ended] at made
      cases made

end Pulls

/-- A stream answers a pull as the counter of its loop does.  The induction is on the passes that
are left: a round without a result takes one of them. -/
theorem exists_pulls (repeats : Predicate (StateM σ)) (p : PropertySet) {c : Counter}
    (sound : c.Sound ceiling) (st : σ) :
    ∃ answer after st', after.Sound ceiling ∧
      Pulls tasks ceiling (repeats p) (c, st) answer (after, st') ∧
      ((Frame.loop tasks repeats ceiling c).stream.answer p).run st =
        ((answer, (Frame.loop tasks repeats ceiling after).stream), st') := by
  induction passes : c.left ceiling using Nat.strongRecOn generalizing c st with
  | ind n ih =>
      obtain ⟨⟨⟨round, after⟩, st'⟩, made⟩ :
          ∃ r, (c.next tasks ceiling (repeats p)).run st = r := ⟨_, rfl⟩
      have move := move_of_run made
      have sound' : after.Sound ceiling := sound.move move
      rw [Frame.answer_loop sound, StateT.run_bind, made]
      cases answers : round.result? with
      | some answer =>
          refine ⟨answer, after, st', sound', .result made answers, ?_⟩
          show (Frame.answerAfter p
            (Frame.loopAfter tasks repeats ceiling (round, after))).run st' = _
          rw [Frame.loopAfter, Frame.answerAfter, answers]
          rfl
      | none =>
          cases move with
          | repeats unfinished pos past below =>
              have fewer : Counter.left ceiling ⟨c.iteration + 1, 0, false⟩ < n := by
                rw [← passes, left_of_below (sound.lt unfinished pos) below]
                exact Nat.lt_succ_self _
              obtain ⟨answer, last, state, lastSound, rest, answered⟩ := ih _ fewer sound' st' rfl
              exact ⟨answer, last, state, lastSound, .repeats made rest, answered⟩
          | _ => cases answers

end Counter

/-- The pulls of a do-while loop are those of a counter that starts fresh and whose passes fit a
machine word: one pull after the other has the answer and leaves the state of the counter's rounds.
A pull that yields no task sets the counter's flag; from then on every pull yields nothing, and
counter and state stay as they are. -/
theorem pulled_counted {σ P : Type} (repeats : Predicate (StateM σ)) (id : TaskId)
    {options : ControllerOptions} (word : options.maxIteration < UInt64.size)
    (tasks : List (Task (StateM σ) P)) (props : Nat → PropertySet) (state : σ) :
    let c : Controller (StateM σ) P := ⟨id, .doWhile repeats, options, tasks⟩
    let pulled := (c.stream true).pulled props state
    ∃ counter : Nat → Counter × σ, counter 0 = (.fresh, state) ∧ ∀ k,
      Counter.Pulls tasks (UInt64.ofNat options.maxIteration) (repeats (props k))
        (counter k) (pulled k).1.1 (counter (k + 1)) ∧
      (counter (k + 1)).2 = (pulled k).2 ∧
      ((counter (k + 1)).1.finished = true ↔ ∀ t, (pulled k).1.1 ≠ .ok (some t)) ∧
      ((counter k).1.finished = true →
        (pulled k).1.1 = .ok none ∧ counter (k + 1) = counter k) := by
  intro c pulled
  let ceiling := UInt64.ofNat options.maxIteration
  let loop (a : Counter) : TaskStream (StateM σ) P := (Frame.loop tasks repeats ceiling a).stream
  -- one pull after the other, on counters that keep below the ceiling
  have step (k : Nat) (x : {x : Counter × σ // x.1.Sound ceiling}) :
      ∃ y : {y : Counter × σ // y.1.Sound ceiling}, ∃ answer,
        Counter.Pulls tasks ceiling (repeats (props k)) x.1 answer y.1 ∧
        ((loop x.1.1).answer (props k)).run x.1.2 = ((answer, loop y.1.1), y.1.2) := by
    obtain ⟨answer, after, st, sound, pulls, answered⟩ :=
      Counter.exists_pulls repeats (props k) x.2 x.1.2
    exact ⟨⟨(after, st), sound⟩, answer, pulls, answered⟩
  choose next answer pulls answered using step
  let run : Nat → {x : Counter × σ // x.1.Sound ceiling} :=
    Nat.rec ⟨(.fresh, state), Counter.sound_fresh ceiling⟩ next
  have fresh : c.stream true = loop .fresh := (Controller.stream_frame word true).symm
  have same (k : Nat) :
      pulled k = ((answer k (run k), loop (run (k + 1)).1.1), (run (k + 1)).1.2) := by
    induction k with
    | zero =>
        show ((c.stream true).answer (props 0)).run state = _
        rw [fresh]
        exact answered 0 (run 0)
    | succ k ih => exact (pulled_succ ih).trans (answered (k + 1) (run (k + 1)))
  refine ⟨fun k => (run k).1, rfl, fun k => ?_⟩
  have here := pulls k (run k)
  rw [same k]
  exact ⟨here, rfl, here.finished_iff, here.of_finished⟩

end QuantumControl.Pipeline
