import QuantumControl.Proofs.Pulse.Appending
import QuantumControl.Proofs.Pulse.Binding

/-!
# Layouts

The children of a schedule say what is on each channel (`Sound.intervals_eq`), how many slots
there are (`Sound.size_eq`) and where the schedule stops.  So what is placed into a schedule that
starts at zero is told by the list of its children (`LaidOut`), which gains one with each command:
at a given place if no child has one of its channels (`LaidOut.insert`), and at the stop in any
case (`LaidOut.append`).
-/

namespace QuantumControl.Pulse

/-! ## Commands at their places -/

namespace Time

theorem zero_addClamped (t : Time) : zero.addClamped t = t := by
  rw [addClamped, val_zero, Int.zero_add, clamp_val]

/-- From a number of samples on, a duration ends in range. -/
theorem val_later_ofSamples (samples duration : UInt32) :
    ((ofSamples samples).later duration).val = samples.toNat + duration.toNat := by
  have first := samples.toNat_lt
  have last := duration.toNat_lt
  refine later_val (reaches_iff.2 ?_)
  show (samples.toNat : Int) + duration.toNat < _
  omega

end Time

/-- A command on channels, a number of samples after zero. -/
def Instruction.boundAt (samples : UInt32) (command : Command) (channels : List Channel) :
    Instruction :=
  { bound command channels with start := Time.ofSamples samples }

/-- What is bound starts at zero, so that it is moved to where it is asked for. -/
theorem Instruction.shiftedClamped_bound (samples : UInt32) (command : Command)
    (channels : List Channel) :
    (bound command channels).shiftedClamped (Time.ofSamples samples) =
      boundAt samples command channels :=
  congrArg (fun start => { bound command channels with start }) (Time.zero_addClamped _)

/-! ## Windows of the children -/

/-- The windows of an instruction on a channel. -/
def Instruction.windowsOn (c : Channel) (i : Instruction) : List Interval :=
  List.replicate (i.channels.count c) i.window

theorem Instruction.on_slots (i : Instruction) (c : Channel) :
    Occupancy.on i.slots c = i.windowsOn c := Occupancy.on_map_mk i.window i.channels c

/-- On a channel a schedule has the windows of its children there, in their order. -/
theorem Schedule.Sound.intervals_eq {s : Schedule} (hs : s.Sound) (c : Channel) :
    s.occupancy.intervals c = s.children.flatMap (Instruction.windowsOn c) := by
  rw [hs.occupancy.intervals_eq, hs.slots]
  induction s.children with
  | nil => rfl
  | cons child rest ih =>
      rw [List.flatMap_cons, List.flatMap_cons, Occupancy.on_append, child.on_slots, ih]

/-- A schedule has as many slots as its children have channels. -/
theorem Schedule.Sound.size_eq {s : Schedule} (hs : s.Sound) :
    s.occupancy.size = (s.children.flatMap (·.channels)).length := by
  rw [Occupancy.size, hs.slots, List.length_flatMap, List.length_flatMap]
  simp only [Instruction.slots, List.length_map]

theorem Instruction.windowsOn_of_singleton {i : Instruction} {c d : Channel}
    (h : i.channels = [d]) : i.windowsOn c = if d = c then [i.window] else [] := by
  rw [windowsOn, h, List.count_singleton]
  by_cases same : d = c
  · rw [if_pos same, if_pos (beq_iff_eq.2 same)]
    rfl
  · rw [if_neg same, if_neg (mt beq_iff_eq.1 same)]
    rfl

/-! ## Layouts -/

namespace Schedule

/-- A schedule that came about from zero on, with these children. -/
structure LaidOut (s : Schedule) (children : List Instruction) : Prop where
  reachable : s.Reachable
  start : s.start = Time.zero
  children : s.children = children

namespace LaidOut

variable {s : Schedule} {children : List Instruction} (h : s.LaidOut children)

theorem new (id : ScheduleId) (name : Option String) : (Schedule.new id name).LaidOut [] :=
  ⟨.new id name, rfl, rfl⟩

include h in
theorem intervals_eq (c : Channel) :
    s.occupancy.intervals c = children.flatMap (Instruction.windowsOn c) := by
  rw [h.reachable.sound.intervals_eq, h.children]

include h in
theorem size_eq : s.occupancy.size = (children.flatMap (·.channels)).length := by
  rw [h.reachable.sound.size_eq, h.children]

include h in
/-- A schedule stops where some child does that takes a channel, if no child stops elsewhere. -/
theorem localStop_eq {instant : Time} (stops : ∀ child ∈ children, child.stop = instant)
    {child : Instruction} (mem : child ∈ children) (taken : child.channels ≠ []) :
    s.localStop = instant := by
  obtain ⟨reachable, -, rfl⟩ := h
  rw [reachable.sound.localStop_eq mem taken, stops child mem]
  intro other there _
  rw [stops other there, stops child mem]

section Command

variable {command : Command} {channels : List Channel}
  (made : Instruction.new command channels = .ok (.bound command channels))

include h made

/-- A command is placed on channels that no child has. -/
theorem insert (samples : UInt32)
    (free : ∀ child ∈ children, ∀ c ∈ child.channels, c ∉ channels) :
    ∃ t, s.insert (Time.ofSamples samples) (.instruction (.bound command channels)) = .ok t ∧
      t.LaidOut (children ++ [.boundAt samples command channels]) := by
  have built : Component.Built (.instruction (.bound command channels)) := .new made
  have admits : s.Admits (Time.ofSamples samples) (.bound command channels) := by
    have start : (Instruction.bound command channels).start.val = 0 := rfl
    have time : (Time.ofSamples samples).val = samples.toNat := rfl
    have frame : s.start.val = 0 := congrArg Time.val h.start
    have first := samples.toNat_lt
    have last := (Instruction.bound command channels).duration.toNat_lt
    refine ⟨by omega, by omega, by omega, fun child mem meets => ?_⟩
    obtain ⟨⟨c, taken, wanted⟩, -⟩ := meets
    exact free child (h.children ▸ mem) c taken wanted
  have done : s.insert (Time.ofSamples samples) (.instruction (.bound command channels)) =
      .ok (s.placed (Time.ofSamples samples) (.bound command channels)) := by
    rw [insert_instruction, h.reachable.sound.place_eq_ok_iff (Instruction.sound_new made)]
    exact ⟨admits, rfl⟩
  refine ⟨_, done, .insert h.reachable built done, h.start, ?_⟩
  rw [Schedule.placed, h.children, Instruction.shiftedClamped_bound]

/-- A command is appended at the stop, whatever its channels are. -/
theorem append {samples : UInt32} (stop : s.localStop = Time.ofSamples samples) :
    ∃ t, s.append (.instruction (.bound command channels)) = .ok t ∧
      t.LaidOut (children ++ [.boundAt samples command channels]) := by
  have built : Component.Built (.instruction (.bound command channels)) := .new made
  have start : (Instruction.bound command channels).start.val = 0 := rfl
  have time : s.localStop.val = samples.toNat := congrArg Time.val stop
  have frame : s.start.val = 0 := congrArg Time.val h.start
  have first := samples.toNat_lt
  have last := (Instruction.bound command channels).duration.toNat_lt
  have room : s.HasRoomFor (.bound command channels) :=
    ⟨⟨by omega, by omega⟩, by omega, by omega⟩
  rcases h.reachable.sound.append_cases (Instruction.sound_new made) (Int.le_of_eq start.symm) with
    ⟨-, done⟩ | ⟨full, -⟩
  · refine ⟨_, done, .append h.reachable built done, h.start, ?_⟩
    rw [stop, Schedule.placed, h.children, Instruction.shiftedClamped_bound]
  · exact absurd room full

end Command

end LaidOut

end Schedule

end QuantumControl.Pulse
