import QuantumControl.Proofs.Pulse.Placement
import QuantumControl.Proofs.Pulse.Time

/-!
# What holds of every schedule

A schedule comes about from an empty one by placing components and by moving its
start, `Schedule.Reachable`.  Children and occupancy are updated along two paths,
and a change of the start concerns every child that is already there; each step
nevertheless keeps a schedule sound, so that all reachable schedules are.

With soundness at hand, placement is exact: it succeeds if and only if the
instruction is admitted, and reports a fault that says what is the matter.
-/

namespace QuantumControl.Pulse

namespace Schedule

theorem Sound.stop_val {s : Schedule} (hs : s.Sound) {child : Instruction}
    (mem : child ∈ s.children) : child.stop.val = child.start.val + child.duration.toNat :=
  Interval.stop_val (hs.children child mem).inRange

/-- No child of a schedule ends after its extent. -/
theorem Sound.le_extent {s : Schedule} (hs : s.Sound) {child : Instruction}
    (mem : child ∈ s.children) :
    child.start.val + child.duration.toNat ≤ s.extent.val := by
  rw [← hs.stop_val mem]
  exact Time.le_latest (List.mem_map_of_mem mem)

/-! ## Steps -/

theorem sound_new (id : ScheduleId) (name : Option String) : (new id name).Sound :=
  ⟨Occupancy.sound_empty, rfl, List.forall_mem_nil _, List.forall_mem_nil _, List.forall_mem_nil _⟩

/-- A schedule stays sound where its whole extent is in range. -/
theorem Sound.reframe {s : Schedule} (hs : s.Sound) {start stop : Time}
    (h : start.add? s.extent = some stop) : { s with start }.Sound where
  occupancy := hs.occupancy
  slots := hs.slots
  children := hs.children
  nonneg := hs.nonneg
  fits := by
    intro child mem
    have sum := Time.add?_eq_some_iff.1 h
    have upper := stop.upper
    have within := hs.le_extent mem
    show start.val + child.start.val + child.duration.toNat ≤ 9223372036854775807
    omega

theorem Sound.withStart {s t : Schedule} (hs : s.Sound) {start : Time}
    (h : s.withStart start = .ok t) : t.Sound := by
  unfold Schedule.withStart at h
  cases sum : start.add? s.extent with
  | none => rw [sum] at h; cases h
  | some stop =>
      rw [sum] at h
      cases h
      exact hs.reframe sum

theorem Sound.shifted {s t : Schedule} (hs : s.Sound) {time : Time}
    (h : s.shifted time = .ok t) : t.Sound := by
  unfold Schedule.shifted at h
  split at h
  · cases h
  · split at h
    · cases h
    · split at h
      · cases h
      · next sum =>
          cases h
          exact hs.reframe sum

end Schedule

/-- Any schedule can be tried as a component, and any instruction that was built. -/
def Component.Built : Component → Prop
  | .instruction i => i.Built
  | .schedule _ => True

namespace Schedule

@[simp] theorem insert_instruction (s : Schedule) (time : Time) (i : Instruction) :
    s.insert time (.instruction i) = s.place time i := rfl

/-- A schedule that is placed is refused, or changes nothing. -/
theorem insert_schedule_eq_ok {s t other : Schedule} {time : Time}
    (h : s.insert time (.schedule other) = .ok t) : t = s := by
  change (if other.id = s.id then _ else if !other.isEmpty then _ else _) = _ at h
  split at h
  · cases h
  · split at h
    · cases h
    · cases h
      rfl

theorem Sound.insert {s t : Schedule} (hs : s.Sound) {time : Time} {component : Component}
    (hc : component.Built) (h : s.insert time component = .ok t) : t.Sound := by
  cases component with
  | instruction i =>
      rw [insert_instruction] at h
      have sound := Instruction.Built.sound hc
      obtain ⟨admits, rfl⟩ := (hs.place_eq_ok_iff sound).1 h
      exact hs.placed sound admits
  | schedule other => exact insert_schedule_eq_ok h ▸ hs

/-- Appending is inserting at the last committed stop, up to the fault that is reported. -/
theorem append_eq_ok_iff {s t : Schedule} {component : Component} :
    s.append component = .ok t ↔ s.insert s.localStop component = .ok t := by
  unfold append
  split
  · next conflict =>
      rw [conflict]
      exact ⟨(nomatch ·), (nomatch ·)⟩
  · exact Iff.rfl

/-- What holds of a schedule and of each result of a step holds after the attempt. -/
theorem commit_of {motive : Schedule → Prop} {s : Schedule} {result : Except PulseError Schedule}
    (kept : motive s) (stepped : ∀ t, result = .ok t → motive t) :
    motive (s.commit result).2 := by
  cases result with
  | ok t => exact stepped t rfl
  | error fault => exact kept

/-- The schedules that come about from an empty one, by steps that succeed or fail. -/
inductive Reachable : Schedule → Prop
  | new (id : ScheduleId) (name : Option String) : Reachable (new id name)
  | withStart {s t : Schedule} {start : Time} (hs : Reachable s)
      (h : s.withStart start = .ok t) : Reachable t
  | shifted {s t : Schedule} {time : Time} (hs : Reachable s)
      (h : s.shifted time = .ok t) : Reachable t
  | insert {s t : Schedule} {time : Time} {component : Component} (hs : Reachable s)
      (hc : component.Built) (h : s.insert time component = .ok t) : Reachable t
  | append {s t : Schedule} {component : Component} (hs : Reachable s)
      (hc : component.Built) (h : s.append component = .ok t) : Reachable t
  | union {s t : Schedule} {component : Component} (hs : Reachable s)
      (hc : component.Built) (h : s.union component = .ok t) : Reachable t
  | insertInPlace {s : Schedule} (time : Time) {component : Component} (hs : Reachable s)
      (hc : component.Built) : Reachable (s.insertInPlace time component).2
  | appendInPlace {s : Schedule} {component : Component} (hs : Reachable s)
      (hc : component.Built) : Reachable (s.appendInPlace component).2

/-- Each step keeps a schedule sound, so every reachable schedule is. -/
theorem Reachable.sound {s : Schedule} (h : s.Reachable) : s.Sound := by
  induction h with
  | new id name => exact sound_new id name
  | withStart _ h ih => exact ih.withStart h
  | shifted _ h ih => exact ih.shifted h
  | insert _ hc h ih => exact ih.insert hc h
  | append _ hc h ih => exact ih.insert hc (append_eq_ok_iff.1 h)
  | union _ hc h ih => exact ih.insert hc h
  | insertInPlace time _ hc ih => exact commit_of ih fun _ h => ih.insert hc h
  | appendInPlace _ hc ih =>
      exact commit_of ih fun _ h => ih.insert hc (append_eq_ok_iff.1 h)

/-! ## The representation -/

/-- Children of a sound schedule that share a channel do not overlap. -/
theorem Sound.apart {s : Schedule} (hs : s.Sound) :
    s.children.Pairwise fun a b =>
      (∃ c ∈ a.channels, c ∈ b.channels) → ¬ a.window.Overlaps b.window := by
  have slots := hs.occupancy.apart
  rw [hs.slots, List.pairwise_flatMap] at slots
  refine slots.2.imp ?_
  rintro a b clear ⟨c, ha, hb⟩ overlap
  exact clear ⟨a.window, c⟩ (Instruction.mem_slots.2 ⟨ha, rfl⟩) ⟨b.window, c⟩
    (Instruction.mem_slots.2 ⟨hb, rfl⟩) ⟨rfl, overlap⟩

/-- In every reachable schedule the occupancy lists the slots of the children in order, its table
agrees with the list, children that share a channel do not overlap, and every child lies at zero
or later and ends in range, also in the frame around the schedule. -/
theorem representation_of_reachable {s : Schedule} (h : s.Reachable) :
    s.occupancy.slots =
        s.children.flatMap (fun child =>
          child.channels.map fun c => ⟨⟨child.start, child.duration⟩, c⟩) ∧
      Occupancy.Indexes s.occupancy.table s.occupancy.slots ∧
      (s.children.Pairwise fun a b =>
        (∃ c ∈ a.channels, c ∈ b.channels) → ¬ a.window.Overlaps b.window) ∧
      (∀ child ∈ s.children, 0 ≤ child.start.val) ∧
      ∀ child ∈ s.children,
        s.start.val + child.start.val + child.duration.toNat ≤ 9223372036854775807 :=
  ⟨h.sound.slots, h.sound.occupancy.indexes, h.sound.apart, h.sound.nonneg, h.sound.fits⟩

theorem representation_of_two_readouts :
    ∃ i, Instruction.acquire { duration := 16 } [0] [0] [] = .ok i ∧
      let s := (((new ⟨⟨0⟩⟩).appendInPlace (.instruction i)).2.appendInPlace (.instruction i)).2
      s.Reachable ∧ s.children.map (·.start.val) = [0, 16] ∧
        (∀ child ∈ s.children, 0 ≤ child.start.val) ∧
        s.children.Pairwise fun a b =>
          (∃ c ∈ a.channels, c ∈ b.channels) → ¬ a.window.Overlaps b.window := by
  refine ⟨_, rfl, ?_⟩
  intro s
  have built := @Instruction.built_acquire { duration := 16 } [0] [0] [] _ rfl
  have reachable : s.Reachable := .appendInPlace (.appendInPlace (.new _ _) built) built
  obtain ⟨-, -, apart, nonneg, -⟩ := representation_of_reachable reachable
  exact ⟨reachable, rfl, nonneg, apart⟩

/-! ## Placement is exact -/

/-- What a placement leaves: one child more, the instruction at its place, and its slots after
the ones that were there, in the list and on each channel. -/
structure Gains (s : Schedule) (time : Time) (i : Instruction) (after : Schedule) : Prop where
  id : after.id = s.id
  name : after.name = s.name
  start : after.start = s.start
  child : ∃ child, child = { i with start := child.start } ∧
    child.start.val = i.start.val + time.val ∧
    after.children = s.children ++ [child] ∧
    after.occupancy.slots = s.occupancy.slots ++ child.slots ∧
    ∀ c, after.occupancy.intervals c = s.occupancy.intervals c ++ Occupancy.on child.slots c

theorem Sound.gains {s : Schedule} (hs : s.Sound) {i : Instruction} (hi : i.Sound) {time : Time}
    (h : s.Admits time i) : s.Gains time i (s.placed time i) := by
  have after := hs.placed hi h
  have slots : (s.placed time i).occupancy.slots =
      s.occupancy.slots ++ (i.shiftedClamped time).slots := by
    rw [after.slots, hs.slots]
    show (s.children ++ [i.shiftedClamped time]).flatMap Instruction.slots = _
    rw [List.flatMap_append, List.flatMap_singleton]
  refine ⟨rfl, rfl, rfl, i.shiftedClamped time, rfl, h.start_shiftedClamped, rfl, slots, ?_⟩
  intro c
  rw [Occupancy.intervals, Occupancy.intervals, after.occupancy.indexes.getD,
    hs.occupancy.indexes.getD, slots, Occupancy.on_append]

/-- Placing an instruction into a reachable schedule succeeds if and only if it is admitted, and
then adds it at its place.  Otherwise the schedule is as before, and the fault is a conflict only
if a child is met at a time that is not negative, a negative shift if and only if the time is
negative, and an overflow in all that remains. -/
theorem insertInPlace_exact {s : Schedule} (hs : s.Reachable) {i : Instruction} (hi : i.Built)
    (time : Time) :
    ((s.insertInPlace time (.instruction i)).1 = .ok () ↔ s.Admits time i) ∧
      (s.Admits time i → s.Gains time i (s.insertInPlace time (.instruction i)).2) ∧
      (∀ fault, (s.insertInPlace time (.instruction i)).1 = .error fault →
        (s.insertInPlace time (.instruction i)).2 = s ∧ s.Refuses time i fault) ∧
      ∀ offset : Time, (s.insertInPlace time (.instruction i)).1 = .error (.negativeShift offset) ↔
        offset.val = i.start.val + time.val ∧ offset.val < 0 := by
  unfold insertInPlace
  rw [insert_instruction]
  rcases place_cases hs.sound hi.sound time with ⟨admits, done⟩ | ⟨fault, refuses, done⟩
  · rw [done]
    refine ⟨⟨fun _ => admits, fun _ => rfl⟩, fun _ => hs.sound.gains hi.sound admits,
      ?_, fun offset => ⟨(nomatch ·), ?_⟩⟩
    · intro fault reported
      cases reported
    · rintro ⟨sum, negative⟩
      have := admits.nonneg
      omega
  · rw [done]
    refine ⟨⟨(nomatch ·), fun admits => absurd admits refuses.not_admits⟩,
      fun admits => absurd admits refuses.not_admits, ?_, fun offset => ?_⟩
    · intro reported same
      cases same
      exact ⟨rfl, refuses⟩
    · rw [← refuses.negative_iff]
      exact ⟨Except.error.inj, congrArg _⟩

theorem insertInPlace_readout :
    ∃ i, Instruction.acquire { duration := 16 } [0] [0] [] = .ok i ∧
      let s := ((new ⟨⟨0⟩⟩).appendInPlace (.instruction i)).2
      s.Reachable ∧ i.Built ∧ s.Admits (Time.ofSamples 16) i ∧ ¬ s.Admits (Time.ofSamples 15) i ∧
        s.Gains (Time.ofSamples 16) i
          (s.insertInPlace (Time.ofSamples 16) (.instruction i)).2 := by
  refine ⟨_, rfl, ?_⟩
  intro s
  have built := @Instruction.built_acquire { duration := 16 } [0] [0] [] _ rfl
  have reachable : s.Reachable := .appendInPlace (.new _ _) built
  obtain ⟨accepted, gains, -, -⟩ := insertInPlace_exact reachable built (Time.ofSamples 16)
  obtain ⟨refused, -, -, -⟩ := insertInPlace_exact reachable built (Time.ofSamples 15)
  have admits := accepted.1 rfl
  refine ⟨reachable, built, admits, ?_, gains admits⟩
  intro wrong
  cases refused.2 wrong

end Schedule

end QuantumControl.Pulse
