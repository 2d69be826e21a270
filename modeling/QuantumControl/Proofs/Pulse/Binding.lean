import Mathlib.Data.List.Nodup
import QuantumControl.Proofs.Pulse.Admission
import QuantumControl.Proofs.Pulse.Instruction

/-!
# Which channels a command is bound to

Binding a command does not look for channels that are listed twice.  It asks for an
occupancy with one slot for each listed channel, all with the same window, and leaves it
to the check for overlaps to refuse two slots on one channel.

A window overlaps itself if and only if it is not empty.  So a command that takes time is
bound to distinct channels only, and one that takes none to any channels that support it
(`compatible_windows_iff`), whatever the kind of the command and however it was built.
-/

namespace QuantumControl.Pulse.Instruction

/-! ## The slots of a command -/

/-- The window of a command on each channel of a list. -/
def windows (duration : UInt32) (channels : List Channel) : List (Timeslot Channel) :=
  channels.map fun c => ⟨⟨Time.zero, duration⟩, c⟩

theorem interval_of_mem_windows {duration : UInt32} {channels : List Channel}
    {slot : Timeslot Channel} (h : slot ∈ windows duration channels) :
    slot.interval = ⟨Time.zero, duration⟩ := by
  obtain ⟨c, -, rfl⟩ := List.mem_map.1 h
  rfl

/-- A window from zero ends in range. -/
theorem exactStop_window_le (duration : UInt32) :
    (⟨Time.zero, duration⟩ : Interval).exactStop ≤ 9223372036854775807 := by
  have := duration.toNat_lt
  simp only [Interval.exactStop, Time.val_zero]
  omega

/-- Slots with one window collide if they are on one channel and the window is not empty. -/
theorem collides_window_iff {duration : UInt32} {c d : Channel} :
    Timeslot.Collides ⟨⟨Time.zero, duration⟩, c⟩ ⟨⟨Time.zero, duration⟩, d⟩ ↔
      c = d ∧ duration ≠ 0 := by
  have pos : 0 < duration.toNat ↔ duration ≠ 0 := by
    rw [ne_eq, ← UInt32.toNat_inj]
    exact Nat.pos_iff_ne_zero
  simp [Timeslot.Collides, Interval.exactStop, pos]

/-- A channel may be listed twice only if the command takes no time. -/
theorem compatible_windows_iff {duration : UInt32} {channels : List Channel} :
    Occupancy.Compatible (windows duration channels) ↔ channels.Nodup ∨ duration = 0 := by
  have apart : ((windows duration channels).Pairwise fun s t => ¬ s.Collides t) ↔
      channels.Nodup ∨ duration = 0 := by
    simp only [windows, List.pairwise_map, collides_window_iff]
    by_cases instant : duration = 0
    · simp [instant, List.pairwise_of_forall]
    · simp [instant, List.Nodup]
  rw [← apart]
  refine ⟨fun h => h.apart, fun h => ⟨fun slot mem => ?_, h⟩⟩
  rw [interval_of_mem_windows mem]
  exact exactStop_window_le duration

/-! ## Binding -/

/-- The instruction of a command on channels, with one slot for each of them. -/
def bound (command : Command) (channels : List Channel) : Instruction where
  command := command
  channels := channels
  start := Time.zero
  occupancy :=
    ⟨windows command.duration channels,
      (windows command.duration channels).foldl Occupancy.enter Table.empty⟩

section Binding

variable {command : Command} {channels : List Channel}

theorem intervals_bound (command : Command) (channels : List Channel) (c : Channel) :
    (bound command channels).occupancy.intervals c =
      List.replicate (channels.count c) ⟨Time.zero, command.duration⟩ := by
  rw [← Occupancy.on_map_mk]
  exact (Occupancy.indexes_empty.foldl_enter _).getD c

/-- Slots with one window are refused for the overlap of the window with itself. -/
theorem ofSlots_windows_eq_error {duration : UInt32}
    (h : ¬ Occupancy.Compatible (windows duration channels)) :
    Occupancy.ofSlots (windows duration channels) =
      .error (.overlappingTimeslots ⟨Time.zero, duration⟩ ⟨Time.zero, duration⟩) := by
  rw [Occupancy.compatible_iff_forall_not_refusedAt, not_forall_not] at h
  obtain ⟨j, first⟩ := Occupancy.exists_isLeast h
  obtain ⟨fault, here⟩ := Occupancy.RefusedAt.exists_faultAt first.1
  rw [Occupancy.ofSlots_of_faultAt first here]
  cases here with
  | outside new outside =>
      rw [interval_of_mem_windows (List.mem_of_getElem? new)] at outside
      exact absurd outside (Int.not_lt.2 (exactStop_window_le duration))
  | collision new old inside earliest =>
      rw [interval_of_mem_windows (List.mem_of_getElem? new),
        interval_of_mem_windows (List.mem_of_getElem? old)]

theorem find?_unsupported_eq_none_iff :
    channels.find? (!·.supports command) = none ↔ ∀ c ∈ channels, c.supports command := by
  rw [List.find?_eq_none]
  exact forall₂_congr fun c _ => by simp

/-- Where every channel supports the command, the check for overlaps decides. -/
theorem new_of_supported (h : ∀ c ∈ channels, c.supports command) :
    new command channels =
      Occupancy.ofSlots (windows command.duration channels) >>= fun occupancy =>
        .ok ⟨command, channels, Time.zero, occupancy⟩ := by
  simp only [new, find?_unsupported_eq_none_iff.2 h]
  rfl

/-- What becomes of a command and channels: some channel does not support it, or it is bound, or
it takes time and some channel is listed twice. -/
theorem new_cases (command : Command) (channels : List Channel) :
    (∃ c, channels.find? (!·.supports command) = some c ∧
      new command channels = .error (.unsupportedCommand command.text c.name)) ∨
    (∀ c ∈ channels, c.supports command) ∧
      (if channels.Nodup ∨ command.duration = 0 then
        new command channels = .ok (bound command channels)
      else new command channels = .error (.overlappingTimeslots ⟨Time.zero, command.duration⟩
        ⟨Time.zero, command.duration⟩)) := by
  cases unsupported : channels.find? (!·.supports command) with
  | some c => exact .inl ⟨c, rfl, by simp only [new, unsupported]⟩
  | none =>
      have supported := find?_unsupported_eq_none_iff.1 unsupported
      refine .inr ⟨supported, ?_⟩
      rw [new_of_supported supported]
      split
      · next distinct =>
          rw [Occupancy.ofSlots_eq_ok_iff_compatible.2 ⟨compatible_windows_iff.2 distinct, rfl⟩]
          rfl
      · next repeated =>
          rw [ofSlots_windows_eq_error (mt compatible_windows_iff.1 repeated)]
          rfl

/-- What is bound is the instruction of the command on these channels. -/
theorem new_eq_ok_iff {i : Instruction} :
    new command channels = .ok i ↔
      ((∀ c ∈ channels, c.supports command) ∧ (channels.Nodup ∨ command.duration = 0)) ∧
        i = bound command channels := by
  rcases new_cases command channels with ⟨c, unsupported, made⟩ | ⟨supported, made⟩
  · have lacking := mt find?_unsupported_eq_none_iff.2 (by rw [unsupported]; exact nofun)
    rw [made]
    exact ⟨nofun, fun h => absurd h.1.1 lacking⟩
  · split at made
    · next distinct =>
        rw [made]
        exact ⟨fun same => ⟨⟨supported, distinct⟩, (Except.ok.inj same).symm⟩, fun h => h.2 ▸ rfl⟩
    · next repeated =>
        rw [made]
        exact ⟨nofun, fun h => absurd h.1.2 repeated⟩

theorem exists_new_iff :
    (∃ i, new command channels = .ok i) ↔
      (∀ c ∈ channels, c.supports command) ∧ (channels.Nodup ∨ command.duration = 0) := by
  simp only [new_eq_ok_iff, exists_and_left, exists_eq, and_true]

theorem new_singleton (command : Command) (c : Channel) (supported : c.supports command) :
    new command [c] = .ok (bound command [c]) :=
  new_eq_ok_iff.2
    ⟨⟨List.forall_mem_singleton.2 supported, .inl (List.nodup_singleton c)⟩, rfl⟩

/-- Binding fails for the first channel that does not support the command, and else for the overlap
of the window with itself if a channel is listed twice and the command takes time. -/
theorem new_eq_error_iff {fault : PulseError} :
    new command channels = .error fault ↔
      (∃ c, channels.find? (!·.supports command) = some c ∧
        fault = .unsupportedCommand command.text c.name) ∨
      (∀ c ∈ channels, c.supports command) ∧ ¬ channels.Nodup ∧ command.duration ≠ 0 ∧
        fault = .overlappingTimeslots ⟨Time.zero, command.duration⟩
          ⟨Time.zero, command.duration⟩ := by
  rcases new_cases command channels with ⟨c, unsupported, made⟩ | ⟨supported, made⟩
  · have lacking := mt find?_unsupported_eq_none_iff.2 (by rw [unsupported]; exact nofun)
    rw [made, Except.error.injEq, unsupported]
    constructor
    · rintro rfl
      exact .inl ⟨c, rfl, rfl⟩
    · rintro (⟨d, same, rfl⟩ | ⟨supported, -⟩)
      · rw [Option.some.inj same]
      · exact absurd supported lacking
  · rw [find?_unsupported_eq_none_iff.2 supported]
    split at made
    · next distinct =>
        rw [made]
        refine ⟨nofun, ?_⟩
        rintro (⟨d, none, -⟩ | ⟨-, repeated, takesTime, -⟩)
        · cases none
        · exact absurd distinct (not_or.2 ⟨repeated, takesTime⟩)
    · next repeated =>
        rw [made, Except.error.injEq]
        constructor
        · rintro rfl
          exact .inr ⟨supported, (not_or.1 repeated).1, (not_or.1 repeated).2, rfl⟩
        · rintro (⟨d, none, -⟩ | ⟨-, -, -, rfl⟩)
          · cases none
          · rfl

end Binding

/-! ## Acquisitions -/

section Acquisition

variable {qubits memorySlots registerSlots : List UInt32}

/-- The channels of an acquisition. -/
def acquired (qubits memorySlots registerSlots : List UInt32) : List Channel :=
  qubits.map .acquire ++ memorySlots.map .memorySlot ++ registerSlots.map .registerSlot

/-- Channels of different kinds are different, so that each kind counts on its own. -/
theorem nodup_acquired_iff :
    (acquired qubits memorySlots registerSlots).Nodup ↔
      qubits.Nodup ∧ memorySlots.Nodup ∧ registerSlots.Nodup := by
  have one (kind : ChannelKind) (indices : List UInt32) :
      (indices.map (Channel.mk kind)).Nodup ↔ indices.Nodup :=
    List.nodup_map_iff fun i j same => (Channel.mk.inj same).2
  have kinds {kind : ChannelKind} {indices : List UInt32} {c : Channel}
      (mem : c ∈ indices.map (Channel.mk kind)) : c.kind = kind := by
    obtain ⟨_, -, rfl⟩ := List.mem_map.1 mem
    rfl
  have memories : List.Disjoint (qubits.map Channel.acquire)
      (memorySlots.map Channel.memorySlot) := fun c qubit memory => by
    cases (kinds qubit).symm.trans (kinds memory)
  have registers : List.Disjoint (qubits.map Channel.acquire ++ memorySlots.map Channel.memorySlot)
      (registerSlots.map Channel.registerSlot) := fun c mem register => by
    rcases List.mem_append.1 mem with qubit | memory
    · cases (kinds qubit).symm.trans (kinds register)
    · cases (kinds memory).symm.trans (kinds register)
  rw [acquired, List.nodup_append', List.nodup_append', one, one, one, and_iff_left memories,
    and_iff_left registers, and_assoc]

theorem supports_acquired {acquisition : Acquisition} :
    ∀ c ∈ acquired qubits memorySlots registerSlots, c.supports (.acquire acquisition) := by
  simp only [acquired, List.forall_mem_append, List.forall_mem_map]
  exact ⟨⟨fun _ _ => rfl, fun _ _ => rfl⟩, fun _ _ => rfl⟩

theorem exists_acquire_iff {acquisition : Acquisition} :
    (∃ i, acquire acquisition qubits memorySlots registerSlots = .ok i) ↔
      (registerSlots = [] ∨ registerSlots.length = qubits.length) ∧
        (qubits.Nodup ∧ memorySlots.Nodup ∧ registerSlots.Nodup ∨ acquisition.duration = 0) := by
  unfold acquire
  split
  · next mismatch =>
      refine ⟨fun ⟨i, made⟩ => ?_, fun h => absurd h.1 (not_or.2 mismatch)⟩
      cases made
  · next matching =>
      show (∃ i, new _ (acquired qubits memorySlots registerSlots) = .ok i) ↔ _
      rw [exists_new_iff, nodup_acquired_iff, and_iff_right supports_acquired]
      exact (and_iff_right (by simpa [or_iff_not_imp_left] using matching)).symm

end Acquisition

/-- However an instruction was built and moved, it lists a channel twice only if its command takes
no time. -/
theorem Built.nodup_or {i : Instruction} (h : i.Built) : i.channels.Nodup ∨ i.duration = 0 := by
  induction h with
  | new made =>
      obtain ⟨⟨-, distinct⟩, rfl⟩ := new_eq_ok_iff.1 made
      exact distinct
  | shifted _ moved ih =>
      obtain ⟨-, rfl⟩ := shifted_eq_ok_iff.1 moved
      exact ih

/-- A command is bound to channels if and only if every channel supports it and the channels are
distinct or the command takes no time; the instruction starts at zero and occupies each channel
from zero for the command's duration, as often as it is listed.  The fault of a failure is the first
channel that does not support the command, or else the overlap of the window with itself.  For
an acquisition the qubits, the memory slots and the register slots must each be distinct, unless it
takes no time; and no instruction that takes time lists a channel twice, however it was built. -/
theorem new_exact (command : Command) (channels : List Channel) :
    ((∃ i, new command channels = .ok i) ↔
      (∀ c ∈ channels, c.supports command) ∧ (channels.Nodup ∨ command.duration = 0)) ∧
    (∀ i, new command channels = .ok i →
      i.command = command ∧ i.channels = channels ∧ i.start = Time.zero ∧
        i.occupancy.slots = channels.map (fun c => ⟨⟨Time.zero, command.duration⟩, c⟩) ∧
        ∀ c, i.occupancy.intervals c =
          List.replicate (channels.count c) ⟨Time.zero, command.duration⟩) ∧
    (∀ fault, new command channels = .error fault ↔
      (∃ c, channels.find? (!·.supports command) = some c ∧
        fault = .unsupportedCommand command.text c.name) ∨
      (∀ c ∈ channels, c.supports command) ∧ ¬ channels.Nodup ∧ command.duration ≠ 0 ∧
        fault = .overlappingTimeslots ⟨Time.zero, command.duration⟩
          ⟨Time.zero, command.duration⟩) ∧
    (∀ acquisition qubits memorySlots registerSlots,
      (∃ i, acquire acquisition qubits memorySlots registerSlots = .ok i) ↔
        (registerSlots = [] ∨ registerSlots.length = qubits.length) ∧
          (qubits.Nodup ∧ memorySlots.Nodup ∧ registerSlots.Nodup ∨ acquisition.duration = 0)) ∧
    ∀ i : Instruction, i.Built → i.duration ≠ 0 → i.channels.Nodup := by
  refine ⟨exists_new_iff, fun i made => ?_, fun fault => new_eq_error_iff,
    fun _ _ _ _ => exists_acquire_iff, fun i built takesTime => ?_⟩
  · obtain ⟨-, rfl⟩ := new_eq_ok_iff.1 made
    exact ⟨rfl, rfl, rfl, rfl, intervals_bound command channels⟩
  · exact built.nodup_or.resolve_right takesTime

/-- An acquisition that takes time occupies its six channels once each, and is refused for a qubit
that is listed twice. -/
theorem new_exact_readout :
    ∃ readout, acquire { duration := 10 } [0, 1] [0, 1] [2, 3] = .ok readout ∧
      readout.Built ∧ readout.duration ≠ 0 ∧ readout.channels.Nodup ∧
      (∀ c ∈ readout.channels, readout.occupancy.intervals c = [⟨Time.zero, 10⟩]) ∧
      ¬ ∃ i, acquire { duration := 10 } [0, 0] [0, 1] [] = .ok i := by
  have made : new (.acquire { duration := 10 }) (acquired [0, 1] [0, 1] [2, 3]) =
      .ok (bound (.acquire { duration := 10 }) (acquired [0, 1] [0, 1] [2, 3])) := rfl
  obtain ⟨-, exact, -, acquisitions, distinct⟩ :=
    new_exact (.acquire { duration := 10 }) (acquired [0, 1] [0, 1] [2, 3])
  obtain ⟨-, -, -, -, intervals⟩ := exact _ made
  have once : (acquired [0, 1] [0, 1] [2, 3]).Nodup := distinct _ (.new made) (by decide)
  refine ⟨_, made, .new made, by decide, once, fun c mem => ?_, ?_⟩
  · rw [intervals, List.count_eq_one_of_mem once mem]
    rfl
  · rw [acquisitions]
    decide

/-- A frame change takes no time, and is bound to one channel twice; so is an acquisition of no
samples to one qubit. -/
theorem frameChange_bound_twice :
    ¬ [Channel.drive 0, .drive 0].Nodup ∧
      (∃ i, new (.frameChange 0.5) [.drive 0, .drive 0] = .ok i ∧
        i.channels = [.drive 0, .drive 0] ∧
        i.occupancy.slots = [⟨⟨Time.zero, 0⟩, .drive 0⟩, ⟨⟨Time.zero, 0⟩, .drive 0⟩]) ∧
      ∃ i, acquire { duration := 0 } [0, 0] [0, 1] [] = .ok i ∧ ¬ i.channels.Nodup :=
  ⟨by decide, ⟨_, rfl, rfl, rfl⟩, ⟨_, rfl, by decide⟩⟩

end QuantumControl.Pulse.Instruction
