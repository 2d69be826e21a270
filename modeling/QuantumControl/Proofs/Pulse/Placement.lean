import QuantumControl.Proofs.Pulse.Instruction
import QuantumControl.Pulse.Schedule

/-!
# Placement in exact integers

Placing an instruction goes through six checks, with additions that are checked in
different ways.  `Schedule.Admits` says in exact integers when all of them pass,
and `Schedule.Refuses` what is the matter for each fault if one does not; by
`Schedule.place_cases` a placement into a sound schedule has no other outcome.
-/

namespace QuantumControl.Pulse

/-- Two instructions, the second moved by a time, meet on a channel of both. -/
def Instruction.Meets (child i : Instruction) (time : Time) : Prop :=
  (∃ c ∈ child.channels, c ∈ i.channels) ∧
    child.start.val < i.start.val + time.val + i.duration.toNat ∧
    i.start.val + time.val < child.start.val + child.duration.toNat

/-- The slots of a child and of an instruction moved to its place clash if the two meet. -/
theorem Instruction.meets_iff {child i : Instruction} {time offset : Time} (hc : child.Sound)
    (hi : i.Sound) (sum : offset.val = i.start.val + time.val)
    (fits : i.channels ≠ [] → offset.val + i.duration.toNat < 9223372036854775808) :
    child.Meets i time ↔
      ∃ s ∈ child.slots, ∃ slot ∈ (i.occupancy.moved offset).slots, s.Clash slot := by
  have overlaps (shared : i.channels ≠ []) :
      child.window.Overlaps ⟨offset, i.duration⟩ ↔
        child.start.val < i.start.val + time.val + i.duration.toNat ∧
          i.start.val + time.val < child.start.val + child.duration.toNat := by
    rw [Interval.overlaps_iff hc.inRange (Interval.inRange_iff.2 (fits shared)), ← sum]
    rfl
  rw [hi.slots_moved]
  constructor
  · rintro ⟨⟨c, hchild, hic⟩, overlap⟩
    exact ⟨⟨child.window, c⟩, mem_slots.2 ⟨hchild, rfl⟩, _, List.mem_map.2 ⟨c, hic, rfl⟩, rfl,
      (overlaps (List.ne_nil_of_mem hic)).2 overlap⟩
  · rintro ⟨s, hs, slot, hslot, same, overlap⟩
    obtain ⟨c, hic, rfl⟩ := List.mem_map.1 hslot
    obtain ⟨hchild, window⟩ := mem_slots.1 hs
    rw [show s.channel = c from same] at hchild
    rw [window] at overlap
    exact ⟨⟨c, hchild, hic⟩, (overlaps (List.ne_nil_of_mem hic)).1 overlap⟩

namespace Schedule

/-- A schedule whose occupancy has the slots of its children, all of which lie at zero or later,
in range in the schedule's own frame and in the frame around it. -/
structure Sound (s : Schedule) : Prop where
  occupancy : s.occupancy.Sound
  slots : s.occupancy.slots = s.children.flatMap Instruction.slots
  children : ∀ child ∈ s.children, child.Sound
  nonneg : ∀ child ∈ s.children, 0 ≤ child.start.val
  fits : ∀ child ∈ s.children,
    s.start.val + child.start.val + child.duration.toNat ≤ 9223372036854775807

/-- The instruction moved by a time can become a child of the schedule. -/
structure Admits (s : Schedule) (time : Time) (i : Instruction) : Prop where
  nonneg : 0 ≤ i.start.val + time.val
  ends : i.start.val + time.val + i.duration.toNat ≤ 9223372036854775807
  fits : s.start.val + (i.start.val + time.val) + i.duration.toNat ≤ 9223372036854775807
  apart : ∀ child ∈ s.children, ¬ child.Meets i time

/-- The fault that is reported if the instruction cannot be placed at a time. -/
inductive Refuses (s : Schedule) (time : Time) (i : Instruction) : PulseError → Prop
  | negative {offset : Time} (sum : offset.val = i.start.val + time.val) (h : offset.val < 0) :
      Refuses s time i (.negativeShift offset)
  | conflict (nonneg : 0 ≤ i.start.val + time.val) {child : Instruction}
      (mem : child ∈ s.children) (h : child.Meets i time) :
      Refuses s time i (.insertConflict i.text time)
  | overflow {reported : Time}
      (h : i.start.val + time.val < -9223372036854775808 ∨
        9223372036854775807 < i.start.val + time.val + i.duration.toNat ∨
        0 ≤ i.start.val + time.val ∧
          9223372036854775807 < s.start.val + (i.start.val + time.val) + i.duration.toNat) :
      Refuses s time i (.timeOverflow reported)

/-- What is admitted is not refused. -/
theorem Refuses.not_admits {s : Schedule} {time : Time} {i : Instruction} {fault : PulseError}
    (h : s.Refuses time i fault) : ¬ s.Admits time i := by
  intro admits
  cases h with
  | negative sum h =>
      have := admits.nonneg
      omega
  | conflict _ mem h => exact admits.apart _ mem h
  | overflow h =>
      have := admits.nonneg
      have := admits.ends
      have := admits.fits
      omega

/-- A negative shift is reported for the times that are negative and in range. -/
theorem Refuses.negative_iff {s : Schedule} {time offset : Time} {i : Instruction}
    {fault : PulseError} (h : s.Refuses time i fault) :
    fault = .negativeShift offset ↔ offset.val = i.start.val + time.val ∧ offset.val < 0 := by
  constructor
  · rintro rfl
    cases h with
    | negative sum h => exact ⟨sum, h⟩
  · rintro ⟨sum, negative⟩
    cases h with
    | negative other _ => exact congrArg _ (Time.ext (other.trans sum.symm))
    | conflict nonneg _ _ => omega
    | overflow h =>
        have := offset.lower
        have := i.duration.toNat_lt
        omega

/-- The schedule with an instruction placed at a time, without a check. -/
def placed (s : Schedule) (time : Time) (i : Instruction) : Schedule :=
  { s with
    occupancy := s.occupancy.mergedUnchecked (i.occupancy.moved (i.start.addClamped time))
    children := s.children ++ [i.shiftedClamped time] }

/-- The committed slots admit those of an instruction if no child meets it. -/
theorem Sound.mergeableWith_iff {s : Schedule} (hs : s.Sound) {i : Instruction} (hi : i.Sound)
    {time offset : Time} (sum : offset.val = i.start.val + time.val)
    (fits : i.channels ≠ [] → offset.val + i.duration.toNat < 9223372036854775808) :
    s.occupancy.mergeableWith (i.occupancy.moved offset) ↔
      ∀ child ∈ s.children, ¬ child.Meets i time := by
  rw [Occupancy.mergeableWith_iff hs.occupancy.indexes, hs.slots]
  constructor
  · intro clear child hchild meets
    obtain ⟨a, ha, b, hb, clash⟩ :=
      (Instruction.meets_iff (hs.children child hchild) hi sum fits).1 meets
    exact clear a (List.mem_flatMap.2 ⟨child, hchild, ha⟩) b hb clash
  · intro apart a ha b hb clash
    obtain ⟨child, hchild, hslots⟩ := List.mem_flatMap.1 ha
    exact apart child hchild
      ((Instruction.meets_iff (hs.children child hchild) hi sum fits).2 ⟨a, hslots, b, hb, clash⟩)

theorem Admits.canMove {s : Schedule} {time : Time} {i : Instruction} (h : s.Admits time i) :
    i.window.CanMove time := by
  have nonneg := h.nonneg
  have ends := h.ends
  rw [Instruction.window_canMove_iff]
  omega

theorem Admits.start_shiftedClamped {s : Schedule} {time : Time} {i : Instruction}
    (h : s.Admits time i) : (i.shiftedClamped time).start.val = i.start.val + time.val :=
  Interval.moved_start h.canMove

/-- The last check: a moved instruction that meets no child ends in range in the frame around the
schedule, or is refused. -/
theorem admits_or_overflow {s : Schedule} {time : Time} {i : Instruction}
    (nonneg : 0 ≤ i.start.val + time.val) (inside : i.window.CanMove time)
    (apart : ∀ child ∈ s.children, ¬ child.Meets i time) :
    (∃ stop, s.start.add? (i.shiftedClamped time).stop = some stop ∧ s.Admits time i) ∨
      s.start.add? (i.shiftedClamped time).stop = none ∧ s.Refuses time i (.timeOverflow time) := by
  have low := s.start.lower
  have stop := Instruction.stop_shiftedClamped inside
  rw [Instruction.window_canMove_iff] at inside
  cases last : s.start.add? (i.shiftedClamped time).stop with
  | none =>
      have outside := Time.add?_eq_none_iff.1 last
      exact .inr ⟨rfl, .overflow (by omega)⟩
  | some frame =>
      have exact := Time.add?_eq_some_iff.1 last
      have upper := frame.upper
      exact .inl ⟨frame, rfl, nonneg, by omega, by omega, apart⟩

/-- An instruction that is admitted is placed, any other is refused. -/
theorem place_cases {s : Schedule} (hs : s.Sound) {i : Instruction} (hi : i.Sound) (time : Time) :
    (s.Admits time i ∧ s.place time i = .ok (s.placed time i)) ∨
      ∃ fault, s.Refuses time i fault ∧ s.place time i = .error fault := by
  unfold place
  cases add : i.start.add? time with
  | none =>
      have outside := Time.add?_eq_none_iff.1 add
      exact .inr ⟨_, .overflow (by omega), rfl⟩
  | some offset =>
  have sum := Time.add?_eq_some_iff.1 add
  dsimp only
  rw [hi.occupancy.shifted_eq offset]
  by_cases negative : offset.val < 0
  · rw [if_pos negative]
    exact .inr ⟨_, .negative sum negative, rfl⟩
  rw [if_neg negative]
  by_cases moves : ∀ slot ∈ i.occupancy.slots, slot.interval.CanMove offset
  · rw [if_pos moves]
    have apart := hs.mergeableWith_iff hi sum (hi.canMove_iff.1 moves)
    dsimp only [bind, Except.bind]
    by_cases merges : s.occupancy.mergeableWith (i.occupancy.moved offset) = true
    · rw [if_neg (by simp [merges]), Instruction.shifted_eq]
      by_cases inside : i.window.CanMove time
      · rw [if_pos inside]
        dsimp only
        rcases admits_or_overflow (by omega) inside (apart.1 merges) with
          ⟨stop, found, admits⟩ | ⟨found, refuses⟩
        · rw [found, placed, Time.addClamped_of_add? add]
          exact .inl ⟨admits, rfl⟩
        · rw [found]
          exact .inr ⟨_, refuses, rfl⟩
      · rw [if_neg inside]
        have lower := offset.lower
        rw [Instruction.window_canMove_iff] at inside
        exact .inr ⟨_, .overflow (by omega), rfl⟩
    · rw [if_pos (by simp [merges])]
      have met := mt apart.2 merges
      simp only [Classical.not_forall, Classical.not_not] at met
      obtain ⟨child, mem, meets⟩ := met
      exact .inr ⟨_, .conflict (by omega) mem meets, rfl⟩
  · rw [if_neg moves]
    obtain ⟨-, outside⟩ := Classical.not_imp.1 (mt hi.canMove_iff.2 moves)
    exact .inr ⟨_, .overflow (by omega), rfl⟩

theorem Sound.place_eq_ok_iff {s t : Schedule} (hs : s.Sound) {i : Instruction} (hi : i.Sound)
    {time : Time} : s.place time i = .ok t ↔ s.Admits time i ∧ t = s.placed time i := by
  rcases place_cases hs hi time with ⟨admits, done⟩ | ⟨fault, refuses, refused⟩
  · rw [done, Except.ok.injEq, eq_comm (a := t)]
    exact ⟨fun same => ⟨admits, same⟩, And.right⟩
  · rw [refused]
    exact ⟨(nomatch ·), fun placed => absurd placed.1 refuses.not_admits⟩

/-- Placing what is admitted keeps a schedule sound. -/
theorem Sound.placed {s : Schedule} (hs : s.Sound) {i : Instruction} (hi : i.Sound) {time : Time}
    (h : s.Admits time i) : (s.placed time i).Sound := by
  have inside := h.canMove
  have start : (i.start.addClamped time).val = i.start.val + time.val := h.start_shiftedClamped
  have moves : ∀ slot ∈ i.occupancy.slots, slot.interval.CanMove (i.start.addClamped time) := by
    rw [hi.canMove_iff, start]
    exact fun _ => inside.2
  have merges := (hs.mergeableWith_iff hi start (hi.canMove_iff.1 moves)).2 h.apart
  refine ⟨hs.occupancy.mergedUnchecked (hi.occupancy.moved moves) merges, ?_, ?_, ?_, ?_⟩
  · rw [Schedule.placed, Occupancy.slots_mergedUnchecked, hs.slots, hi.slots_moved,
      List.flatMap_append, List.flatMap_singleton]
    rfl
  · exact List.forall_mem_append.2 ⟨hs.children, by simpa using hi.shiftedClamped inside⟩
  · refine List.forall_mem_append.2 ⟨hs.nonneg, ?_⟩
    intro child mem
    rw [List.mem_singleton.1 mem]
    exact start ▸ h.nonneg
  · refine List.forall_mem_append.2 ⟨hs.fits, ?_⟩
    intro child mem
    rw [List.mem_singleton.1 mem]
    exact start ▸ h.fits

end Schedule

end QuantumControl.Pulse
