import QuantumControl.Proofs.Pulse.Flattening

/-!
# Schedules that are moved

Moving a schedule to a later time changes its start alone, and goes by one bound: in the frame
around it the latest end of a child is in range (`Sound.shifted_eq_ok_iff`).  The bound concerns
the start, and the end of each child by itself (`Sound.add_latestEnd_le_iff`).  So two moves are
as good as one, even if the two times add up to one that is out of range.  And an instruction
that is placed before a move or after it is held to the same bounds: once as one of the children
that are moved, and once as the one that is placed among them (`Sound.admits_canDelay_iff`).
-/

namespace QuantumControl.Pulse

namespace Schedule

/-- The latest end of a child in exact integers, or zero if there is none. -/
def latestEnd (s : Schedule) : Int :=
  (s.children.map fun child : Instruction => child.start.val + child.duration.toNat).max?.getD 0

/-- The schedule at a later time, without a check. -/
def delayed (s : Schedule) (time : Time) : Schedule := { s with start := s.start.addClamped time }

/-- The schedule can be moved to a later time: it stays in range to the end of its last child. -/
structure CanDelay (s : Schedule) (time : Time) : Prop where
  later : 0 ≤ time.val
  fits : s.start.val + time.val + s.latestEnd ≤ 9223372036854775807

/-! ## Moves -/

section Moves

variable {s : Schedule} (hs : s.Sound)

include hs

theorem Sound.latestEnd_eq : s.latestEnd = s.extent.val := by
  by_cases empty : s.children = []
  · rw [latestEnd, extent, empty]
    rfl
  · have ends : (s.children.map fun child : Instruction =>
        child.start.val + (child.duration.toNat : Int)) =
          (s.children.map Instruction.stop).map Time.val := by
      rw [List.map_map]
      exact List.map_congr_left fun child mem => (hs.stop_val mem).symm
    have stops : s.children.map Instruction.stop ≠ [] := mt List.map_eq_nil_iff.1 empty
    have last := Time.latest_mem stops
    rw [latestEnd, ends, List.max?_eq_some_iff.2 ⟨List.mem_map_of_mem last, ?_⟩]
    · rfl
    · exact List.forall_mem_map.2 fun t mem => Time.le_latest mem

/-- From a start on, a schedule ends within a bound if the start lies within it and each child
ends there. -/
theorem Sound.add_latestEnd_le_iff {start bound : Int} :
    start + s.latestEnd ≤ bound ↔ start ≤ bound ∧
      ∀ child ∈ s.children, start + (child.start.val + child.duration.toNat) ≤ bound := by
  cases latest : (s.children.map fun child : Instruction =>
      child.start.val + (child.duration.toNat : Int)).max? with
  | none =>
      have empty := List.map_eq_nil_iff.1 (List.max?_eq_none_iff.1 latest)
      rw [latestEnd, latest, empty]
      simp
  | some last =>
      have below := List.max?_le_iff latest (x := bound - start)
      obtain ⟨child, mem, same⟩ := List.mem_map.1 (List.max?_eq_some_iff.1 latest).1
      have nonneg := hs.nonneg child mem
      rw [List.forall_mem_map] at below
      rw [latestEnd, latest, Option.getD_some]
      constructor
      · intro fits
        refine ⟨by omega, fun child mem => ?_⟩
        have := below.1 (by omega) child mem
        omega
      · rintro ⟨-, each⟩
        have := each child mem
        omega

/-- A schedule is in range to the end of its last child. -/
theorem Sound.start_add_latestEnd_le : s.start.val + s.latestEnd ≤ 9223372036854775807 := by
  have upper := s.start.upper
  refine hs.add_latestEnd_le_iff.2 ⟨by omega, fun child mem => ?_⟩
  rw [← Int.add_assoc]
  exact hs.fits child mem

theorem Sound.latestEnd_nonneg : 0 ≤ s.latestEnd := by
  have within : 0 + s.latestEnd ≤ s.latestEnd := Int.le_of_eq (Int.zero_add _)
  exact (hs.add_latestEnd_le_iff.1 within).1

variable {time : Time}

theorem Sound.delayed_start (h : s.CanDelay time) :
    (s.delayed time).start.val = s.start.val + time.val := by
  have lower := s.start.lower
  have nonneg := hs.latestEnd_nonneg
  obtain ⟨later, fits⟩ := h
  exact Time.clamp_val_of_range (by omega) (by omega)

/-- Moving a schedule succeeds if it can be moved, and then changes its start alone. -/
theorem Sound.shifted_eq_ok_iff {t : Schedule} :
    s.shifted time = .ok t ↔ s.CanDelay time ∧ t = s.delayed time := by
  constructor
  · intro moved
    obtain ⟨later, frame, start⟩ := shifted_eq_ok moved
    have last : t.latestEnd = s.latestEnd := by rw [frame]; rfl
    have fits := (hs.shifted moved).start_add_latestEnd_le
    rw [start, last] at fits
    refine ⟨⟨later, fits⟩, ?_⟩
    rw [frame, delayed, Time.addClamped_of_add? (Time.add?_eq_some_iff.2 start)]
  · rintro ⟨h, rfl⟩
    have start := hs.delayed_start h
    have exact := hs.latestEnd_eq
    have nonneg := hs.latestEnd_nonneg
    have lower := (s.delayed time).start.lower
    obtain ⟨later, fits⟩ := h
    obtain ⟨stop, inRange⟩ : ∃ stop, (s.delayed time).start.add? s.extent = some stop := by
      rw [← Option.ne_none_iff_exists', ne_eq, Time.add?_eq_none_iff]
      omega
    have forward : ¬ time < Time.zero := Int.not_lt.2 later
    rw [Schedule.shifted, if_neg forward, Time.add?_eq_some_iff.2 start]
    dsimp only
    rw [inRange]
    rfl

theorem Sound.shifted_zero : s.shifted Time.zero = .ok s := by
  have can : s.CanDelay Time.zero := by
    refine ⟨Int.le_refl 0, ?_⟩
    rw [Time.val_zero, Int.add_zero]
    exact hs.start_add_latestEnd_le
  refine hs.shifted_eq_ok_iff.2 ⟨can, ?_⟩
  rw [delayed, Time.addClamped, Time.val_zero, Int.add_zero, Time.clamp_val]

end Moves

/-! ## Two moves -/

section Twice

variable {s : Schedule} (hs : s.Sound) {a b : Time}

include hs

theorem Sound.canDelay_twice_iff :
    s.CanDelay a ∧ (s.delayed a).CanDelay b ↔
      0 ≤ a.val ∧ 0 ≤ b.val ∧
        s.start.val + a.val + b.val + s.latestEnd ≤ 9223372036854775807 := by
  constructor
  · rintro ⟨first, later, fits⟩
    rw [hs.delayed_start first] at fits
    exact ⟨first.later, later, fits⟩
  · rintro ⟨firstLater, later, fits⟩
    have first : s.CanDelay a := ⟨firstLater, by omega⟩
    refine ⟨first, later, ?_⟩
    rw [hs.delayed_start first]
    exact fits

theorem Sound.shifted_twice_eq_ok_iff {t : Schedule} :
    (s.shifted a >>= (·.shifted b)) = .ok t ↔
      (s.CanDelay a ∧ (s.delayed a).CanDelay b) ∧ t = (s.delayed a).delayed b := by
  rw [bind_eq_ok_iff]
  constructor
  · rintro ⟨half, first, second⟩
    have sound := hs.shifted first
    obtain ⟨can, rfl⟩ := hs.shifted_eq_ok_iff.1 first
    obtain ⟨can', rfl⟩ := sound.shifted_eq_ok_iff.1 second
    exact ⟨⟨can, can'⟩, rfl⟩
  · rintro ⟨⟨can, can'⟩, rfl⟩
    have first := hs.shifted_eq_ok_iff.2 ⟨can, rfl⟩
    exact ⟨_, first, (hs.shifted first).shifted_eq_ok_iff.2 ⟨can', rfl⟩⟩

end Twice

/-! ## A move and a placement -/

section Placing

variable {s : Schedule} (hs : s.Sound) {i : Instruction} (hi : i.Sound) {time u : Time}

include hs hi

/-- What is placed before a move is one of the children that have to stay in range; what is placed
after it has to end in range where the schedule starts by then. -/
theorem Sound.admits_canDelay_iff :
    s.Admits u i ∧ (s.placed u i).CanDelay time ↔
      s.CanDelay time ∧ (s.delayed time).Admits u i := by
  constructor
  · rintro ⟨admits, later, fits⟩
    obtain ⟨start, each⟩ := (hs.placed hi admits).add_latestEnd_le_iff.1 fits
    obtain ⟨old, new⟩ := List.forall_mem_append.1 each
    have can : s.CanDelay time := ⟨later, hs.add_latestEnd_le_iff.2 ⟨start, old⟩⟩
    refine ⟨can, admits.nonneg, admits.ends, ?_, admits.apart⟩
    have last := new _ (List.mem_singleton_self _)
    rw [admits.start_shiftedClamped, ← Int.add_assoc] at last
    rw [hs.delayed_start can]
    exact last
  · rintro ⟨can, nonneg, ends, fits, apart⟩
    rw [hs.delayed_start can] at fits
    have later := can.later
    have admits : s.Admits u i := ⟨nonneg, ends, by omega, apart⟩
    obtain ⟨start, old⟩ := hs.add_latestEnd_le_iff.1 can.fits
    refine ⟨admits, later, (hs.placed hi admits).add_latestEnd_le_iff.2 ⟨start, ?_⟩⟩
    refine List.forall_mem_append.2 ⟨old, List.forall_mem_singleton.2 ?_⟩
    rw [admits.start_shiftedClamped, ← Int.add_assoc]
    exact fits

/-- A placement and a move succeed in either order or in none, and leave the same schedule. -/
theorem Sound.place_shifted_comm {t : Schedule} :
    (s.place u i >>= (·.shifted time)) = .ok t ↔ (s.shifted time >>= (·.place u i)) = .ok t := by
  rw [bind_eq_ok_iff, bind_eq_ok_iff]
  constructor
  · rintro ⟨half, first, second⟩
    obtain ⟨admits, rfl⟩ := (hs.place_eq_ok_iff hi).1 first
    obtain ⟨can, rfl⟩ := (hs.placed hi admits).shifted_eq_ok_iff.1 second
    obtain ⟨can', admits'⟩ := (hs.admits_canDelay_iff hi).1 ⟨admits, can⟩
    have moved := hs.shifted_eq_ok_iff.2 ⟨can', rfl⟩
    exact ⟨_, moved, ((hs.shifted moved).place_eq_ok_iff hi).2 ⟨admits', rfl⟩⟩
  · rintro ⟨half, first, second⟩
    have sound := hs.shifted first
    obtain ⟨can, rfl⟩ := hs.shifted_eq_ok_iff.1 first
    obtain ⟨admits, rfl⟩ := (sound.place_eq_ok_iff hi).1 second
    obtain ⟨admits', can'⟩ := (hs.admits_canDelay_iff hi).2 ⟨can, admits⟩
    exact ⟨_, (hs.place_eq_ok_iff hi).2 ⟨admits', rfl⟩,
      (hs.placed hi admits').shifted_eq_ok_iff.2 ⟨can', rfl⟩⟩

end Placing

/-- Moving a reachable schedule by two times that are not negative, one after the other, succeeds if
and only if it starts and ends in range at the sum of both, whether that sum is itself in range or
not, and then changes the start alone.  Moving it by no time changes nothing.  An instruction can
be placed before a move if and only if it can be placed after it, and leaves the same schedule. -/
theorem shifted_action {s : Schedule} (hs : s.Reachable) :
    s.shifted Time.zero = .ok s ∧
      (∀ a b : Time, 0 ≤ a.val → 0 ≤ b.val →
        ((∃ t, (s.shifted a >>= (·.shifted b)) = .ok t) ↔
          s.start.val + a.val + b.val + s.latestEnd ≤ 9223372036854775807) ∧
        ∀ t, (s.shifted a >>= (·.shifted b)) = .ok t →
          t = { s with start := t.start } ∧ t.start.val = s.start.val + a.val + b.val) ∧
      ∀ (a u : Time) (i : Instruction), i.Built → ∀ t,
        (s.insert u (.instruction i) >>= (·.shifted a)) = .ok t ↔
          (s.shifted a >>= (·.insert u (.instruction i))) = .ok t := by
  have sound := hs.sound
  refine ⟨sound.shifted_zero, fun a b firstLater later => ⟨?_, fun t moved => ?_⟩,
    fun a u i built t => ?_⟩
  · simp only [sound.shifted_twice_eq_ok_iff, exists_and_left, exists_eq, and_true,
      sound.canDelay_twice_iff, firstLater, later, true_and]
  · obtain ⟨half, first, second⟩ := bind_eq_ok_iff.1 moved
    obtain ⟨-, frame, start⟩ := shifted_eq_ok first
    obtain ⟨-, frame', start'⟩ := shifted_eq_ok second
    refine ⟨?_, by rw [start', start]⟩
    rw [frame', frame]
  · exact sound.place_shifted_comm built.sound

/-- A readout of one sample in a schedule that starts at the first instant: it can be moved by the
last instant twice, though not by the sum of both, and stops at the end of the range.  A snapshot
can be placed at the last instant before such a move and after it. -/
theorem shifted_action_readout :
    ∃ i mark, Instruction.acquire { duration := 1 } [0] [0] [] = .ok i ∧
      Instruction.snapshot "edge" "state" = .ok mark ∧
      let first : Time := ⟨-9223372036854775808, by decide, by decide⟩
      let last : Time := ⟨9223372036854775807, by decide, by decide⟩
      let full := ((new ⟨⟨0⟩⟩).appendInPlace (.instruction i)).2
      let s : Schedule := { full with start := first }
      s.Reachable ∧ s.latestEnd = 1 ∧ last.add? last = none ∧
        (∃ t, (s.shifted last >>= (·.shifted last)) = .ok t ∧
          t.start.val = 9223372036854775806) ∧
        ∃ t, (s.insert last (.instruction mark) >>= (·.shifted last)) = .ok t ∧
          (s.shifted last >>= (·.insert last (.instruction mark))) = .ok t := by
  let snapshot : Instruction := ⟨.snapshot "edge" "state", [], Time.zero, Occupancy.empty⟩
  refine ⟨_, snapshot, rfl, rfl, ?_⟩
  intro first last full s
  have readout := @Instruction.built_acquire { duration := 1 } [0] [0] [] _ rfl
  have mark := @Instruction.Built.new (.snapshot "edge" "state") [] _ rfl
  have built : full.Reachable := .appendInPlace (.new _ _) readout
  have started : full.withStart first = .ok s := rfl
  have reachable : s.Reachable := .withStart built started
  obtain ⟨-, twice, either⟩ := shifted_action reachable
  obtain ⟨bound, exact⟩ := twice last last (by decide) (by decide)
  obtain ⟨t, moved⟩ := bound.2 (by decide)
  have start := (exact t moved).2
  have outside : last.add? last = none := Time.add?_eq_none_iff.2 (.inr (by decide))
  refine ⟨reachable, rfl, outside, ⟨t, moved, start⟩, ?_⟩
  have fits : (s.insert last (.instruction snapshot) >>= (·.shifted last)).isOk = true := by decide
  cases placed : s.insert last (.instruction snapshot) >>= (·.shifted last) with
  | ok u => exact ⟨u, rfl, (either last last snapshot mark u).1 placed⟩
  | error fault =>
      rw [placed] at fits
      cases fits

end Schedule

end QuantumControl.Pulse
