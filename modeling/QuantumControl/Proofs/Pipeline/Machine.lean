import QuantumControl.Proofs.Pipeline.Counter
import QuantumControl.Proofs.Pipeline.Evaluation

/-!
# Runs in rounds

A runner is a machine with a stack of frames, one for each stream that it drives,
the innermost first.  In a round the innermost frame yields a task, ends, fails, or,
past the last task of a pass of a loop, asks whether there is another pass.

`Runner.driveFor` makes rounds as long as its fuel lasts.  What a tree needs is known
before the run (`Task.rounds`): a round spends some of it, whatever passes and
predicates do (`Frame.surely_next`).  Streams count without words, and answer
a pull as the rounds of their frames do (`Frame.answer_stream`); so a round is a part
of the run that `Runner.execute` makes (`Runner.drive_round`).
-/

namespace QuantumControl.Pipeline

variable {m : Type → Type} {P : Type}

/-! ## Effects of a run -/

/-- What follows a consultation of the properties matters on its possible answers only. -/
theorem RunM.withProperties_bind_eq [Monad m] [LawfulMonad m] {α β : Type} {q : α → Prop}
    {f : PropertySet → m α} (surely : ∀ p, Surely q (f p)) {g h : α → RunM m β}
    (same : ∀ a, q a → g a = h a) : withProperties f >>= g = withProperties f >>= h := by
  apply ext
  intro state properties
  rw [run_bind, run_bind, run_withProperties, bind_assoc, bind_assoc]
  refine (surely properties).bind_eq fun a ha => ?_
  rw [pure_bind, pure_bind]
  dsimp only
  rw [same a ha]

/-! ## What a tree needs -/

/-- How often a flow may run its tasks. -/
def Flow.mostPasses (ceiling : Nat) : Flow m → Nat
  | .linear | .condition _ => 1
  | .doWhile _ => ceiling

mutual

/-- The rounds that suffice for all the streams of a task: one for each task of each pass, and one
for the end of the pass. -/
def Task.rounds : Task m P → Nat
  | .pass _ => 0
  | .controller _ flow options tasks =>
      max (flow.mostPasses options.maxIteration) 1 * (Task.roundsAll tasks + 1)

def Task.roundsAll : List (Task m P) → Nat
  | [] => 0
  | t :: ts => t.rounds + 1 + Task.roundsAll ts

end

mutual

/-- The ceilings of the controllers of a tree, whether their flows look at them or not. -/
def Task.ceilings : Task m P → List Nat
  | .pass _ => []
  | .controller _ _ options tasks => options.maxIteration :: Task.ceilingsAll tasks

def Task.ceilingsAll : List (Task m P) → List Nat
  | [] => []
  | t :: ts => t.ceilings ++ Task.ceilingsAll ts

end

/-- The ceilings of a tree are machine words. -/
def Task.Words (t : Task m P) : Prop := ∀ n ∈ t.ceilings, n < UInt64.size

instance (t : Task m P) : Decidable t.Words :=
  inferInstanceAs (Decidable (∀ n ∈ t.ceilings, n < UInt64.size))

theorem Task.mem_ceilingsAll {n : Nat} {ts : List (Task m P)} :
    n ∈ Task.ceilingsAll ts ↔ ∃ t ∈ ts, n ∈ t.ceilings := by
  induction ts with
  | nil => simp [Task.ceilingsAll]
  | cons t ts ih => simp [Task.ceilingsAll, ih]

theorem Task.words_controller {id : TaskId} {flow : Flow m} {options : ControllerOptions}
    {tasks : List (Task m P)} :
    (Task.controller id flow options tasks).Words ↔
      options.maxIteration < UInt64.size ∧ ∀ t ∈ tasks, t.Words := by
  simp only [Task.Words, Task.ceilings, List.forall_mem_cons, Task.mem_ceilingsAll]
  exact and_congr_right fun _ => ⟨fun h t ht n hn => h n ⟨t, ht, hn⟩,
    fun h n ⟨t, ht, hn⟩ => h t ht n hn⟩

/-! ## Frames -/

/-- A stream that is being driven. -/
inductive Frame (m : Type → Type) (P : Type) where
  | sequence (rest : List (Task m P))
  | loop (tasks : List (Task m P)) (repeats : Predicate m) (ceiling : UInt64) (counter : Counter)

/-- The frame of a controller that is, or is not, entered. -/
def Controller.frame (c : Controller m P) (entered : Bool) : Frame m P :=
  match c.flow, entered with
  | _, false => .sequence []
  | .linear, true | .condition _, true => .sequence c.tasks
  | .doWhile repeats, true =>
      .loop c.tasks repeats (UInt64.ofNat c.options.maxIteration) Counter.fresh

namespace Frame

/-- A loop with the counter that a round leaves. -/
def loopAfter (tasks : List (Task m P)) (repeats : Predicate m) (ceiling : UInt64)
    (r : Round m P × Counter) : Round m P × Frame m P := (r.1, loop tasks repeats ceiling r.2)

/-- One round, with the properties of the moment. -/
def next [Monad m] (properties : PropertySet) : Frame m P → m (Round m P × Frame m P)
  | sequence [] => return (.ends, sequence [])
  | sequence (t :: rest) => return (.yields t, sequence rest)
  | loop tasks repeats ceiling counter =>
      loopAfter tasks repeats ceiling <$> counter.next tasks ceiling (repeats properties)

/-- The stream of a frame, which counts down the passes that are left. -/
def stream : Frame m P → TaskStream m P
  | sequence rest => .sequence rest
  | loop tasks repeats ceiling counter =>
      if counter.finished then .finished
      else if ceiling = 0 then .overrun 0
      else .loop tasks repeats ceiling.toNat (counter.left ceiling) counter.position

/-- The rounds that suffice for what a frame has still to yield. -/
def need : Frame m P → Nat
  | sequence rest => Task.roundsAll rest + 1
  | loop tasks _ ceiling counter =>
      Task.roundsAll (tasks.drop counter.position) + 1 +
        counter.left ceiling * (Task.roundsAll tasks + 1)

/-- A frame that a run can get to. -/
def Fits : Frame m P → Prop
  | sequence rest => ∀ t ∈ rest, t.Words
  | loop tasks _ ceiling counter => counter.Sound ceiling ∧ ∀ t ∈ tasks, t.Words

/-- The stream of a loop that is not over. -/
theorem stream_loop {tasks : List (Task m P)} {repeats : Predicate m} {ceiling : UInt64}
    {c : Counter} (unfinished : c.finished = false) (pos : ceiling ≠ 0) :
    (loop tasks repeats ceiling c).stream =
      .loop tasks repeats ceiling.toNat (c.left ceiling) c.position := by
  rw [stream, unfinished, if_neg Bool.false_ne_true, if_neg pos]

/-! ### Answers in rounds -/

section Answers

variable [Monad m]

/-- What is answered after a round: its result, if it has one, and else what the next pull gives. -/
def answerAfter (p : PropertySet) (r : Round m P × Frame m P) : m (TaskStream.Answer m P) :=
  match r.1.result? with
  | some result => return (result, r.2.stream)
  | none => r.2.stream.answer p

/-- The end of a pass, in the stream and in the frame.  The stream has a number of passes left,
the frame has a word to compare with the ceiling. -/
theorem decision_left {tasks : List (Task m P)} {repeats : Predicate m} {ceiling : UInt64}
    {c : Counter} (below : c.iteration < ceiling) (pos : ceiling ≠ 0) (p : PropertySet) :
    TaskStream.decision tasks repeats ceiling.toNat p (c.left ceiling) =
      repeats p >>= fun again =>
        answerAfter p (loopAfter tasks repeats ceiling (c.endPass ceiling again)) := by
  by_cases reached : ceiling ≤ c.iteration + 1
  · rw [Counter.left_of_reached below reached, TaskStream.decision]
    apply bind_congr
    intro again
    cases again with
    | false => rfl
    | true =>
        rw [Counter.endPass_of_reached reached]
        rfl
  · have more := UInt64.not_le.1 reached
    rw [Counter.left_of_below below more, TaskStream.decision]
    apply bind_congr
    intro again
    cases again with
    | false => rfl
    | true =>
        rw [Counter.endPass_of_below more]
        exact (congrArg (TaskStream.answer · p) (stream_loop rfl pos)).symm

variable [LawfulMonad m]

/-- A loop answers a pull by a round of its counter, and by the next pull if that has no result. -/
theorem answer_loop {tasks : List (Task m P)} {repeats : Predicate m} {ceiling : UInt64}
    {c : Counter} (sound : c.Sound ceiling) (p : PropertySet) :
    (loop tasks repeats ceiling c).stream.answer p =
      c.next tasks ceiling (repeats p) >>= fun r =>
        answerAfter p (loopAfter tasks repeats ceiling r) := by
  cases c.phase tasks ceiling with
  | finished ended =>
      rw [Counter.next_of_finished (repeats p) ended, pure_bind, stream, if_pos ended]
      refine (TaskStream.answer_sequence_nil p).trans ?_
      rw [loopAfter, answerAfter, stream, if_pos ended]
      rfl
  | overrun unfinished zero =>
      subst zero
      rw [Counter.next_of_overrun (repeats p) unfinished, pure_bind, stream, unfinished, if_pos rfl]
      exact TaskStream.answer_overrun 0 p
  | within unfinished pos t here =>
      rw [Counter.next_of_getElem? (repeats p) unfinished pos here, pure_bind,
        stream_loop unfinished pos, TaskStream.answer_loop_of_getElem? tasks repeats _ here]
      -- the counter after the round, with one position more, is not over either
      rw [loopAfter, answerAfter,
        stream_loop (c := ⟨c.iteration, c.position + 1, c.finished⟩) unfinished pos]
      rfl
  | past unfinished pos past =>
      rw [Counter.next_of_past (repeats p) unfinished pos past, bind_assoc,
        stream_loop unfinished pos, TaskStream.answer_loop_of_past tasks repeats _ past,
        decision_left (sound.lt unfinished pos) pos]
      simp only [pure_bind]

/-- The stream of a frame answers a pull by a round of the frame, and by the next pull if that has
no result. -/
theorem answer_stream {f : Frame m P} (fits : f.Fits) (p : PropertySet) :
    f.stream.answer p = f.next p >>= answerAfter p := by
  cases f with
  | sequence rest =>
      cases rest with
      | nil =>
          rw [next, pure_bind]
          exact TaskStream.answer_sequence_nil p
      | cons t ts =>
          rw [next, pure_bind]
          exact TaskStream.answer_sequence_cons t ts p
  | loop tasks repeats ceiling c =>
      rw [answer_loop fits.1, next, bind_map_left]

end Answers

end Frame

/-! ### Needs -/

/-- What a round spends of what a frame needs: it pays for itself, and for a task that it yields. -/
inductive Spends (f : Frame m P) : Round m P × Frame m P → Prop
  | yields {t : Task m P} {rest : Frame m P} (words : t.Words) (fits : rest.Fits)
      (less : t.rounds + rest.need < f.need) : Spends f (.yields t, rest)
  | repeats {rest : Frame m P} (fits : rest.Fits) (less : rest.need < f.need) :
      Spends f (.repeats, rest)
  | ends {rest : Frame m P} : Spends f (.ends, rest)
  | fails {error : PassError} {rest : Frame m P} : Spends f (.fails error, rest)

namespace Frame

theorem need_pos (f : Frame m P) : 0 < f.need := by
  cases f <;> simp only [need] <;> omega

/-- A move of a counter spends what its loop needs. -/
theorem spends_of_move {tasks : List (Task m P)} {repeats : Predicate m} {ceiling : UInt64}
    {c : Counter} (sound : c.Sound ceiling) (words : ∀ t ∈ tasks, t.Words)
    {r : Round m P × Counter} (move : c.Move tasks ceiling r) :
    Spends (loop tasks repeats ceiling c) (loopAfter tasks repeats ceiling r) := by
  have sound' : r.2.Sound ceiling := sound.move move
  cases move with
  | finished => exact .ends
  | overrun => exact .fails
  | ends => exact .ends
  | fails => exact .fails
  | @yields t unfinished pos here =>
      refine .yields (words t (List.mem_of_getElem? here)) ⟨sound', words⟩ ?_
      obtain ⟨inside, rfl⟩ := List.getElem?_eq_some_iff.1 here
      simp only [need, Counter.left, List.drop_eq_getElem_cons inside, Task.roundsAll]
      omega
  | repeats unfinished pos past below =>
      refine .repeats ⟨sound', words⟩ ?_
      have nothing : tasks.drop c.position = [] :=
        List.drop_eq_nil_iff.2 (List.getElem?_eq_none_iff.1 past)
      have left := Counter.left_of_below (sound.lt unfinished pos) below
      simp only [need, nothing, left, Nat.succ_mul, Task.roundsAll, List.drop_zero]
      omega

/-- A round spends what its frame needs, whatever a predicate answers. -/
theorem surely_next [Monad m] [LawfulMonad m] {f : Frame m P} (fits : f.Fits) (p : PropertySet) :
    Surely (Spends f) (f.next p) := by
  cases f with
  | sequence rest =>
      cases rest with
      | nil => exact surely_pure .ends
      | cons t ts =>
          obtain ⟨words, fits⟩ := List.forall_mem_cons.1 fits
          refine surely_pure (.yields words fits ?_)
          simp only [need, Task.roundsAll]
          omega
  | loop tasks repeats ceiling c =>
      obtain ⟨sound, words⟩ := fits
      exact (Counter.surely_next tasks ceiling (repeats p) c).map fun r =>
        spends_of_move sound words

end Frame

namespace Controller

theorem stream_frame {c : Controller m P} (word : c.options.maxIteration < UInt64.size)
    (entered : Bool) : (c.frame entered).stream = c.stream entered := by
  obtain ⟨id, flow, ⟨ceiling⟩, tasks⟩ := c
  cases entered with
  | false => cases flow <;> rfl
  | true =>
      cases flow with
      | linear => rfl
      | condition holds => rfl
      | doWhile repeats =>
          have toNat : (UInt64.ofNat ceiling).toNat = ceiling := UInt64.toNat_ofNat_of_lt word
          cases ceiling with
          | zero => rfl
          | succ left =>
              have pos : UInt64.ofNat (left + 1) ≠ 0 := fun zero => by
                rw [zero] at toNat
                exact absurd toNat (Nat.succ_ne_zero left).symm
              simp only [frame, Frame.stream, Counter.left, Counter.fresh, pos, toNat]
              rfl

theorem fits_frame {c : Controller m P} (words : ∀ t ∈ c.tasks, t.Words) (entered : Bool) :
    (c.frame entered).Fits := by
  obtain ⟨id, flow, options, tasks⟩ := c
  cases entered with
  | false => cases flow <;> exact fun t ht => absurd ht List.not_mem_nil
  | true =>
      cases flow with
      | linear => exact words
      | condition holds => exact words
      | doWhile repeats => exact ⟨Counter.sound_fresh _, words⟩

theorem need_frame_le {c : Controller m P} (word : c.options.maxIteration < UInt64.size)
    (entered : Bool) : (c.frame entered).need ≤ c.toTask.rounds := by
  obtain ⟨id, flow, ⟨ceiling⟩, tasks⟩ := c
  cases entered with
  | false =>
      have : 1 * 1 ≤ max (flow.mostPasses ceiling) 1 * (Task.roundsAll tasks + 1) :=
        Nat.mul_le_mul (Nat.le_max_right _ _) (Nat.succ_pos _)
      cases flow <;> exact this
  | true =>
      cases flow with
      | linear => exact Nat.le_of_eq (Nat.one_mul _).symm
      | condition holds => exact Nat.le_of_eq (Nat.one_mul _).symm
      | doWhile repeats =>
          have toNat : (UInt64.ofNat ceiling).toNat = ceiling := UInt64.toNat_ofNat_of_lt word
          have passes : max ceiling 1 = ceiling - 1 + 1 := by omega
          show _ ≤ max ceiling 1 * (Task.roundsAll tasks + 1)
          simp only [frame, Frame.need, Counter.left, Counter.fresh, toNat, passes, Nat.succ_mul,
            List.drop_zero]
          exact Nat.le_of_eq (Nat.add_comm _ _)

end Controller

/-- What the frames of a stack need together. -/
def Frame.needAll : List (Frame m P) → Nat
  | [] => 0
  | f :: outer => f.need + needAll outer

/-- A stack whose frames a run can get to, and whose needs some fuel meets. -/
structure Ready (fuel : Nat) (stack : List (Frame m P)) : Prop where
  fits : ∀ f ∈ stack, f.Fits
  enough : Frame.needAll stack ≤ fuel

namespace Ready

variable {fuel : Nat} {f rest : Frame m P} {outer : List (Frame m P)}

theorem single (fits : f.Fits) (enough : f.need ≤ fuel) : Ready fuel [f] where
  fits := List.forall_mem_singleton.2 fits
  enough := enough

/-- There is always a round to be made as long as there is a frame. -/
theorem lt (h : Ready fuel (f :: outer)) : Frame.needAll outer < fuel :=
  Nat.lt_of_lt_of_le (Nat.lt_add_of_pos_left f.need_pos) h.enough

theorem pop (h : Ready (fuel + 1) (f :: outer)) : Ready fuel outer where
  fits := (List.forall_mem_cons.1 h.fits).2
  enough := Nat.le_of_lt_succ h.lt

theorem replace (h : Ready (fuel + 1) (f :: outer)) (fits : rest.Fits)
    (less : rest.need < f.need) : Ready fuel (rest :: outer) where
  fits := List.forall_mem_cons.2 ⟨fits, h.pop.fits⟩
  enough := by
    have := h.enough
    rw [Frame.needAll] at this ⊢
    omega

theorem push {inner : Frame m P} (h : Ready (fuel + 1) (f :: outer)) (fitsInner : inner.Fits)
    (fits : rest.Fits) (less : inner.need + rest.need < f.need) :
    Ready fuel (inner :: rest :: outer) where
  fits := List.forall_mem_cons.2 ⟨fitsInner, List.forall_mem_cons.2 ⟨fits, h.pop.fits⟩⟩
  enough := by
    have := h.enough
    rw [Frame.needAll] at this ⊢
    rw [Frame.needAll]
    omega

end Ready

/-! ## The machine -/

namespace Runner

variable [Monad m] (r : Runner m P)

/-- Drive a stack of frames, the innermost first, for at most as many rounds as there is fuel; none
if it does not last. -/
def driveFor : Nat → List (Frame m P) → P → RunM m (Option P)
  | _, [], program => return some program
  | 0, _ :: _, _ => return none
  | fuel + 1, frame :: outer, program => do
      match ← RunM.withProperties frame.next with
      | (.repeats, frame) => driveFor fuel (frame :: outer) program
      | (.ends, _) => driveFor fuel outer program
      | (.fails error, _) => throw error
      | (.yields (.pass p), frame) => do
          let program ← r.runPass p program
          driveFor fuel (frame :: outer) program
      | (.yields (.controller id flow options tasks), frame) => do
          let inner : Controller m P := ⟨id, flow, options, tasks⟩
          let entered ← RunM.withProperties inner.enters
          driveFor fuel (inner.frame entered :: frame :: outer) program

/-- Run a controller for at most as many rounds as there is fuel. -/
def executeFor (fuel : Nat) (root : Controller m P) (program : P) : RunM m (Option P) := do
  let entered ← RunM.withProperties root.enters
  r.driveFor fuel [root.frame entered] program

/-- Drive the streams of a stack to their ends, the innermost first. -/
def unwind : List (Frame m P) → P → RunM m P
  | [], program => return program
  | frame :: outer, program => do
      let program ← r.drive frame.stream program
      unwind outer program

/-- What is left of a stream after a round. -/
def resume (program : P) : Round m P × Frame m P → RunM m P
  | (.repeats, frame) => r.drive frame.stream program
  | (.ends, _) => return program
  | (.fails error, _) => throw error
  | (.yields t, frame) => do
      let program ← r.runTask t program
      r.drive frame.stream program

variable {r}

variable [LawfulMonad m]

/-- To drive a stream is to make a round of its frame, and to go on. -/
theorem drive_round {f : Frame m P} (fits : f.Fits) (program : P) :
    r.drive f.stream program = RunM.withProperties f.next >>= r.resume program := by
  rw [drive_eq, funext (Frame.answer_stream fits), RunM.withProperties_bind, bind_assoc]
  apply bind_congr
  rintro ⟨round, rest⟩
  have result (a : TaskStream.Answer m P) :
      RunM.withProperties (fun _ => pure a) >>= r.proceed program = r.proceed program a := by
    rw [RunM.withProperties_pure, pure_bind]
  cases round with
  | repeats => exact (r.drive_eq rest.stream program).symm
  | yields t => exact result (.ok (some t), rest.stream)
  | ends => exact result (.ok none, rest.stream)
  | fails error => exact result (.error error, rest.stream)

theorem map_unwind_cons (f : Frame m P) (outer : List (Frame m P)) (program : P) :
    some <$> r.unwind (f :: outer) program =
      r.drive f.stream program >>= fun program => some <$> r.unwind outer program := by
  rw [unwind, map_bind]

/-- Enough fuel brings a stack to its end, whatever its passes and predicates do.  The induction is
on the fuel: each round spends some of what the stack needs. -/
theorem driveFor_eq {fuel : Nat} {stack : List (Frame m P)} (ready : Ready fuel stack)
    (program : P) : r.driveFor fuel stack program = some <$> r.unwind stack program := by
  induction fuel generalizing stack program with
  | zero =>
      cases stack with
      | nil => exact (map_pure _ _).symm
      | cons f outer => exact absurd ready.lt (Nat.not_lt_zero _)
  | succ fuel ih =>
      cases stack with
      | nil => exact (map_pure _ _).symm
      | cons f outer =>
          have fits := ready.fits f List.mem_cons_self
          rw [map_unwind_cons, drive_round fits, bind_assoc]
          refine RunM.withProperties_bind_eq (Frame.surely_next fits) fun a spends => ?_
          cases spends with
          | repeats fits less =>
              exact (ih (ready.replace fits less) program).trans (map_unwind_cons _ outer program)
          | ends =>
              rw [resume, pure_bind]
              exact ih ready.pop program
          | fails =>
              rw [resume, RunM.throw_bind]
          | @yields t rest words fits less =>
              rw [resume, bind_assoc]
              cases t with
              | pass p =>
                  refine bind_congr fun program => ?_
                  have less : rest.need < f.need := Nat.lt_of_le_of_lt (Nat.le_add_left _ _) less
                  have next := ih (ready.replace fits less) program
                  exact next.trans (map_unwind_cons rest outer program)
              | controller id flow options tasks =>
                  obtain ⟨word, words⟩ := Task.words_controller.1 words
                  let inner : Controller m P := ⟨id, flow, options, tasks⟩
                  rw [runTask, execute, bind_assoc]
                  refine bind_congr fun entered => ?_
                  -- what the stream paid for the task is what the new frame needs
                  have paid : (inner.frame entered).need ≤
                      (Task.controller id flow options tasks).rounds :=
                    inner.need_frame_le word entered
                  have less : (inner.frame entered).need + rest.need < f.need :=
                    Nat.lt_of_le_of_lt (Nat.add_le_add_right paid _) less
                  have next := ih (ready.push (inner.fits_frame words entered) fits less) program
                  rw [map_unwind_cons, inner.stream_frame word] at next
                  refine next.trans ?_
                  exact bind_congr fun program => map_unwind_cons rest outer program

/-- A run is over within the rounds of its tree. -/
theorem executeFor_eq {root : Controller m P} (words : root.toTask.Words) {fuel : Nat}
    (enough : root.toTask.rounds ≤ fuel) (program : P) :
    r.executeFor fuel root program = some <$> r.execute root program := by
  obtain ⟨word, words⟩ := Task.words_controller.1 words
  rw [executeFor, execute, map_bind]
  refine bind_congr fun entered => ?_
  have ready : Ready fuel [root.frame entered] :=
    .single (root.fits_frame words entered)
      (Nat.le_trans (root.need_frame_le word entered) enough)
  rw [driveFor_eq ready, map_unwind_cons, root.stream_frame word]
  simp only [unwind, map_pure, bind_pure_comp]

end Runner

end QuantumControl.Pipeline
