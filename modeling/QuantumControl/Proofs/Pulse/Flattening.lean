import Mathlib.Data.List.Forall2
import QuantumControl.Proofs.Pulse.Schedule

/-!
# Times in the frame around a schedule

The flat form of a schedule and its stop are read in the frame around it: the start of
the schedule is added to a time within.  These additions would stop at the last instant
rather than fail, and several times could become one.

In a sound schedule none of them comes that far.  Each child ends in range in the frame
around as well (`Sound.canMove_start`), whether it takes a channel or not, and the
schedule stops where one of its children does, or where it starts (`Sound.localStop_cases`).
-/

namespace QuantumControl.Pulse

/-- The second instruction is the first one, later by exactly a time, and ends in range. -/
structure Instruction.Delayed (time : Time) (i j : Instruction) : Prop where
  same : j = { i with start := j.start }
  start : j.start.val = i.start.val + time.val
  ends : j.start.val + j.duration.toNat ≤ 9223372036854775807

theorem Instruction.delayed_shiftedClamped {i : Instruction} {time : Time}
    (inside : i.window.CanMove time) : i.Delayed time (i.shiftedClamped time) := by
  have start : (i.shiftedClamped time).start.val = i.start.val + time.val :=
    Interval.moved_start inside
  refine ⟨rfl, start, ?_⟩
  have ends := (window_canMove_iff.1 inside).2
  show (i.shiftedClamped time).start.val + i.duration.toNat ≤ _
  omega

namespace Schedule

theorem Sound.canMove_start {s : Schedule} (hs : s.Sound) {child : Instruction}
    (mem : child ∈ s.children) : child.window.CanMove s.start := by
  have lower := s.start.lower
  have nonneg := hs.nonneg child mem
  have fits := hs.fits child mem
  rw [Instruction.window_canMove_iff]
  omega

/-! ## The stop -/

/-- A schedule has nothing committed, as no child takes a channel, or stops with a child that
does. -/
theorem Sound.localStop_cases {s : Schedule} (hs : s.Sound) :
    (s.localStop = Time.zero ∧ ∀ child ∈ s.children, child.channels = []) ∨
      ∃ child ∈ s.children, child.channels ≠ [] ∧ s.localStop = child.stop := by
  by_cases free : s.occupancy.slots = []
  · refine .inl ⟨by rw [localStop, Occupancy.stop?, free]; rfl, fun child mem => ?_⟩
    rw [hs.slots, List.flatMap_eq_nil_iff] at free
    exact List.map_eq_nil_iff.1 (free child mem)
  · obtain ⟨slot, hslot, same⟩ :=
      List.mem_map.1 (Time.latest_mem (mt List.map_eq_nil_iff.1 free))
    rw [hs.slots] at hslot
    obtain ⟨child, mem, taken⟩ := List.mem_flatMap.1 hslot
    obtain ⟨channel, window⟩ := Instruction.mem_slots.1 taken
    refine .inr ⟨child, mem, List.ne_nil_of_mem channel, ?_⟩
    rw [localStop, Occupancy.stop?, ← same, window]
    rfl

/-- The stop is as long after the start as the schedule lasts. -/
theorem Sound.stop_exact {s : Schedule} (hs : s.Sound) :
    s.stop.val = s.start.val + s.localStop.val := by
  have lower := s.start.lower
  have upper := s.start.upper
  rcases hs.localStop_cases with ⟨empty, -⟩ | ⟨child, mem, -, last⟩
  · rw [stop, empty]
    exact Time.clamp_val_of_range (by rw [Time.val_zero]; omega) (by rw [Time.val_zero]; omega)
  · have exact := hs.stop_val mem
    have nonneg := hs.nonneg child mem
    have fits := hs.fits child mem
    rw [stop, last]
    exact Time.clamp_val_of_range (by omega) (by omega)

/-! ## The flat form -/

/-- The flat form has the children in order, each later by the start of the schedule. -/
theorem Sound.forall₂_flat {s : Schedule} (hs : s.Sound) :
    List.Forall₂ (Instruction.Delayed s.start) s.children s.flat := by
  rw [flat, List.forall₂_map_right_iff, List.forall₂_same]
  exact fun child mem => Instruction.delayed_shiftedClamped (hs.canMove_start mem)

/-- What is apart within a schedule is apart in the frame around it. -/
theorem Sound.pairwise_flat {s : Schedule} (hs : s.Sound) :
    s.flat.Pairwise fun a b =>
      (∃ c ∈ a.channels, c ∈ b.channels) → ¬ a.window.Overlaps b.window := by
  rw [flat, List.pairwise_map]
  refine hs.apart.imp_of_mem fun {a b} ha hb apart shared overlap => apart shared ?_
  exact (Interval.overlaps_moved (hs.children a ha).inRange (hs.children b hb).inRange
    (hs.canMove_start ha) (hs.canMove_start hb)).1 overlap

/-- Moving a schedule moves its start alone. -/
theorem shifted_eq_ok {s t : Schedule} {time : Time} (h : s.shifted time = .ok t) :
    0 ≤ time.val ∧ t = { s with start := t.start } ∧
      t.start.val = s.start.val + time.val := by
  unfold shifted at h
  split at h
  · cases h
  · next later =>
      split at h
      · cases h
      · next sum =>
          split at h
          · cases h
          · cases h
            exact ⟨Int.not_lt.1 later, rfl, Time.add?_eq_some_iff.1 sum⟩

/-- Moving a schedule delays all that its flat form has. -/
theorem Sound.forall₂_flat_shifted {s t : Schedule} (hs : s.Sound) {time : Time}
    (h : s.shifted time = .ok t) : List.Forall₂ (Instruction.Delayed time) s.flat t.flat := by
  have ht := hs.shifted h
  obtain ⟨-, frame, start⟩ := shifted_eq_ok h
  have children : t.children = s.children := by rw [frame]
  rw [flat, flat, children, List.forall₂_map_left_iff, List.forall₂_map_right_iff,
    List.forall₂_same]
  intro child mem
  have before := Instruction.delayed_shiftedClamped (hs.canMove_start mem)
  have after := Instruction.delayed_shiftedClamped (ht.canMove_start (children ▸ mem))
  refine ⟨rfl, ?_, after.ends⟩
  rw [after.start, before.start, start]
  omega

/-- The flat form of a reachable schedule has each child once and in order, with its command and
channels, at exactly the start of the schedule plus its own, and in range to its end; no two that
share a channel overlap; and the schedule stops at exactly its start plus its duration.  Moving it
succeeds for times that are not negative only, keeps the children and the occupancy, and delays
all that the flat form has by exactly the time. -/
theorem flat_exact {s : Schedule} (h : s.Reachable) :
    List.Forall₂ (Instruction.Delayed s.start) s.children s.flat ∧
      s.stop.val = s.start.val + s.localStop.val ∧
      (s.flat.Pairwise fun a b =>
        (∃ c ∈ a.channels, c ∈ b.channels) → ¬ a.window.Overlaps b.window) ∧
      ∀ time t, s.shifted time = .ok t →
        0 ≤ time.val ∧ t.children = s.children ∧ t.occupancy = s.occupancy ∧
          List.Forall₂ (Instruction.Delayed time) s.flat t.flat := by
  refine ⟨h.sound.forall₂_flat, h.sound.stop_exact, h.sound.pairwise_flat, ?_⟩
  intro time t moved
  obtain ⟨later, frame, -⟩ := shifted_eq_ok moved
  exact ⟨later, by rw [frame], by rw [frame], h.sound.forall₂_flat_shifted moved⟩

/-- Two readouts and a snapshot, which takes no channel, in a schedule that starts before zero and
is then moved to a start after it. -/
theorem flat_of_early_readouts :
    ∃ readout mark, Instruction.acquire { duration := 16 } [0] [0] [] = .ok readout ∧
      Instruction.snapshot "state" "done" = .ok mark ∧
      let twice := (((new ⟨⟨0⟩⟩).appendInPlace (.instruction readout)).2.appendInPlace
        (.instruction readout)).2
      let full := (twice.insertInPlace (Time.ofSamples 40) (.instruction mark)).2
      let early : Schedule := { full with start := ⟨-20, by decide, by decide⟩ }
      let moved : Schedule := { full with start := Time.ofSamples 5 }
      early.Reachable ∧ early.flat.map (·.start.val) = [-20, -4, 20] ∧
        early.stop.val = -20 + 32 ∧ early.shifted (Time.ofSamples 25) = .ok moved ∧
        List.Forall₂ (Instruction.Delayed (Time.ofSamples 25)) early.flat moved.flat := by
  refine ⟨_, _, rfl, rfl, ?_⟩
  intro twice full early moved
  have readout := @Instruction.built_acquire { duration := 16 } [0] [0] [] _ rfl
  have mark := @Instruction.Built.new (.snapshot "state" "done") [] _ rfl
  have built : full.Reachable :=
    .insertInPlace _ (.appendInPlace (.appendInPlace (.new _ _) readout) readout) mark
  have started : full.withStart ⟨-20, by decide, by decide⟩ = .ok early := rfl
  have reachable : early.Reachable := .withStart built started
  obtain ⟨-, stop, -, moves⟩ := flat_exact reachable
  obtain ⟨-, -, -, later⟩ := moves (Time.ofSamples 25) moved rfl
  exact ⟨reachable, rfl, stop, rfl, later⟩

end Schedule

end QuantumControl.Pulse
