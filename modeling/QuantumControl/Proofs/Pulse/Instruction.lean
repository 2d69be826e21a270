import QuantumControl.Proofs.Pulse.Occupancy
import QuantumControl.Pulse.Instruction

/-!
# What an instruction occupies

An instruction is bound to channels at zero and moved afterwards, by times of
either sign.  Moving changes its start alone: the occupancy stays relative to the
start, one slot from zero for the command's duration on each channel.

`Instruction.Built` are the instructions that come about in this way, and
`Instruction.Sound` is what they have in common.
-/

namespace QuantumControl.Pulse.Instruction

/-- The interval that the instruction takes in the frame of its start. -/
def window (i : Instruction) : Interval := ⟨i.start, i.duration⟩

/-- The instruction's window on each of its channels. -/
def slots (i : Instruction) : List (Timeslot Channel) := i.channels.map fun c => ⟨i.window, c⟩

theorem mem_slots {i : Instruction} {slot : Timeslot Channel} :
    slot ∈ i.slots ↔ slot.channel ∈ i.channels ∧ slot.interval = i.window := by
  obtain ⟨interval, channel⟩ := slot
  constructor
  · intro h
    obtain ⟨c, hc, e⟩ := List.mem_map.1 h
    cases e
    exact ⟨hc, rfl⟩
  · rintro ⟨hc, rfl⟩
    exact List.mem_map.2 ⟨channel, hc, rfl⟩

theorem window_canMove_iff {i : Instruction} {time : Time} :
    i.window.CanMove time ↔ -9223372036854775808 ≤ i.start.val + time.val ∧
      i.start.val + time.val + i.duration.toNat < 9223372036854775808 := Iff.rfl

theorem window_shiftedClamped (i : Instruction) (time : Time) :
    (i.shiftedClamped time).window = i.window.moved time := rfl

theorem stop_shiftedClamped {i : Instruction} {time : Time} (inside : i.window.CanMove time) :
    (i.shiftedClamped time).stop.val = i.start.val + time.val + i.duration.toNat := by
  have stop : (i.shiftedClamped time).stop = (i.window.moved time).stop := rfl
  rw [stop, Interval.stop_val (Interval.inRange_moved inside), Interval.moved_start inside]
  rfl

/-- Moving succeeds if the moved window is in range, and then it moves the start. -/
theorem shifted_eq (i : Instruction) (time : Time) :
    i.shifted time =
      if i.window.CanMove time then .ok (i.shiftedClamped time)
      else .error (.timeOverflow time) := by
  unfold shifted
  cases sum : i.start.add? time with
  | none =>
      have outside := Time.add?_eq_none_iff.1 sum
      have stuck : ¬ i.window.CanMove time := by
        rw [window_canMove_iff]
        omega
      rw [if_neg stuck]
  | some start =>
      have exact := Time.add?_eq_some_iff.1 sum
      have lower := start.lower
      have inside : start.reaches i.duration ↔ i.window.CanMove time := by
        rw [Time.reaches_iff, window_canMove_iff]
        omega
      simp only [shiftedClamped, Time.addClamped_of_add? sum, inside]

theorem shifted_eq_ok_iff {i j : Instruction} {time : Time} :
    i.shifted time = .ok j ↔ i.window.CanMove time ∧ j = i.shiftedClamped time := by
  rw [shifted_eq]
  split
  · next inside =>
      constructor
      · intro e
        cases e
        exact ⟨inside, rfl⟩
      · rintro ⟨-, rfl⟩
        rfl
  · next outside => exact ⟨(nomatch ·), fun e => absurd e.1 outside⟩

/-- The instructions that can be built: bound to channels, then moved any number of times. -/
inductive Built : Instruction → Prop
  | new {command : Command} {channels : List Channel} {i : Instruction}
      (h : new command channels = .ok i) : Built i
  | shifted {i j : Instruction} {time : Time} (hi : Built i) (h : i.shifted time = .ok j) :
      Built j

/-- An acquisition is bound like any other command; the remaining ways to build an instruction are
`new` by definition. -/
theorem built_acquire {acquisition : Acquisition} {qubits memorySlots registerSlots : List UInt32}
    {i : Instruction}
    (h : acquire acquisition qubits memorySlots registerSlots = .ok i) : Built i := by
  unfold acquire at h
  split at h
  · cases h
  · exact .new h

/-- An instruction that occupies each of its channels from zero for its duration, and ends in
range. -/
structure Sound (i : Instruction) : Prop where
  occupancy : i.occupancy.Sound
  slots : i.occupancy.slots = i.channels.map fun c => ⟨⟨Time.zero, i.duration⟩, c⟩
  inRange : i.window.inRange

theorem sound_new {command : Command} {channels : List Channel} {i : Instruction}
    (h : new command channels = .ok i) : i.Sound := by
  unfold new at h
  split at h
  · cases h
  · dsimp only at h
    cases made : Occupancy.ofSlots (channels.map fun c => ⟨⟨Time.zero, command.duration⟩, c⟩) with
    | error fault =>
        rw [made] at h
        cases h
    | ok occupancy =>
        rw [made] at h
        cases h
        obtain ⟨sound, slots⟩ := Occupancy.sound_ofSlots made
        refine ⟨sound, slots, Interval.inRange_iff.2 ?_⟩
        have := command.duration.toNat_lt
        show (0 : Int) + command.duration.toNat < 9223372036854775808
        omega

theorem Sound.shiftedClamped {i : Instruction} (h : i.Sound) {time : Time}
    (inside : i.window.CanMove time) : (i.shiftedClamped time).Sound where
  occupancy := h.occupancy
  slots := h.slots
  inRange := by
    rw [window_shiftedClamped]
    exact Interval.inRange_moved inside

theorem Built.sound {i : Instruction} (h : i.Built) : i.Sound := by
  induction h with
  | new h => exact sound_new h
  | shifted _ h ih =>
      obtain ⟨inside, rfl⟩ := shifted_eq_ok_iff.1 h
      exact ih.shiftedClamped inside

/-- The occupancy can move to a time after which the duration fits, or if it is empty. -/
theorem Sound.canMove_iff {i : Instruction} (h : i.Sound) {time : Time} :
    (∀ slot ∈ i.occupancy.slots, slot.interval.CanMove time) ↔
      (i.channels ≠ [] → time.val + i.duration.toNat < 9223372036854775808) := by
  have lower := time.lower
  have zero : Interval.CanMove ⟨Time.zero, i.duration⟩ time ↔
      time.val + i.duration.toNat < 9223372036854775808 := by
    simp [Interval.CanMove, lower]
  rw [h.slots, List.forall_mem_map]
  cases i.channels with
  | nil => simp
  | cons c rest =>
      constructor
      · intro all _
        exact zero.1 (all c List.mem_cons_self)
      · intro inside _ _
        exact zero.2 (inside nofun)

/-- The occupancy moved to a time takes every channel from that time on. -/
theorem Sound.slots_moved {i : Instruction} (h : i.Sound) (time : Time) :
    (i.occupancy.moved time).slots = i.channels.map fun c => ⟨⟨time, i.duration⟩, c⟩ := by
  rw [Occupancy.slots_moved, h.slots, List.map_map]
  refine List.map_congr_left fun c _ => ?_
  simp [Timeslot.moved, Interval.moved, Time.addClamped]

end QuantumControl.Pulse.Instruction
