import Mathlib.Algebra.Order.Group.Int
import Mathlib.Order.Bounds.Defs
import QuantumControl.Proofs.Pulse.Flattening

/-!
# Which children the stop of a schedule covers

A schedule reads its stop off the committed slots, and its extent off the children.
An instruction that takes no channel has no slot, but it ends at some time all the same:
so the stop is the latest end of the children that take a channel
(`Sound.ends_stop_of_taking`), and the extent gives that of all children.

The two agree as long as no child without a channel ends after the last committed slot.
A snapshot that is placed after everything else is such a child.
-/

namespace QuantumControl.Pulse.Schedule

/-- An instant is the latest end of children in the frame around a schedule with the given start,
or the start itself if there are none. -/
structure Ends (start : Time) (children : List Instruction) (instant : Int) : Prop where
  without : children = [] → instant = start.val
  latest : children ≠ [] →
    IsGreatest {t | ∃ child ∈ children, t = start.val + child.stop.val} instant

/-- What is attained by a child and covers all of them is their latest end. -/
theorem ends_add {start last : Time} {children : List Instruction}
    (without : children = [] → last = Time.zero)
    (attained : children ≠ [] → ∃ child ∈ children, last = child.stop)
    (covers : ∀ child ∈ children, child.stop.val ≤ last.val) :
    Ends start children (start.val + last.val) := by
  constructor
  · intro none
    rw [without none, Time.val_zero, Int.add_zero]
  · intro some
    obtain ⟨child, mem, same⟩ := attained some
    refine ⟨⟨child, mem, by rw [same]⟩, ?_⟩
    rintro _ ⟨child, mem, rfl⟩
    exact Int.add_le_add_left (covers child mem) _

/-- The extent is the latest end of all children. -/
theorem ends_extent (s : Schedule) : Ends s.start s.children (s.start.val + s.extent.val) := by
  refine ends_add (fun none => ?_) (fun some => ?_) fun child mem => ?_
  · rw [extent, none]
    rfl
  · obtain ⟨child, mem, last⟩ := List.mem_map.1 (Time.latest_mem (mt List.map_eq_nil_iff.1 some))
    exact ⟨child, mem, last.symm⟩
  · exact Time.le_latest (List.mem_map_of_mem mem)

/-- The children that take a channel. -/
def taking (s : Schedule) : List Instruction := s.children.filter (·.channels ≠ [])

theorem mem_taking {s : Schedule} {child : Instruction} :
    child ∈ s.taking ↔ child ∈ s.children ∧ child.channels ≠ [] := by
  simp [taking]

section Sound

variable {s : Schedule} (hs : s.Sound)

include hs

theorem Sound.stop_nonneg {child : Instruction} (mem : child ∈ s.children) :
    0 ≤ child.stop.val := by
  have nonneg := hs.nonneg child mem
  rw [hs.stop_val mem]
  omega

theorem Sound.localStop_nonneg : 0 ≤ s.localStop.val := by
  rcases hs.localStop_cases with ⟨free, -⟩ | ⟨child, mem, -, last⟩
  · rw [free]
    exact Int.le_refl 0
  · rw [last]
    exact hs.stop_nonneg mem

/-- No child that takes a channel ends after the last committed slot. -/
theorem Sound.le_localStop {child : Instruction} (mem : child ∈ s.children)
    (taken : child.channels ≠ []) : child.stop.val ≤ s.localStop.val := by
  obtain ⟨c, hc⟩ := List.exists_mem_of_ne_nil _ taken
  have slot : ⟨child.window, c⟩ ∈ s.occupancy.slots := by
    rw [hs.slots]
    exact List.mem_flatMap.2 ⟨child, mem, Instruction.mem_slots.2 ⟨hc, rfl⟩⟩
  exact Time.le_latest (List.mem_map_of_mem slot)

/-- A schedule stops with a child that takes a channel, if no other such child ends later. -/
theorem Sound.localStop_eq {child : Instruction} (mem : child ∈ s.children)
    (taken : child.channels ≠ [])
    (last : ∀ other ∈ s.children, other.channels ≠ [] → other.stop.val ≤ child.stop.val) :
    s.localStop = child.stop := by
  refine Time.ext (Int.le_antisymm ?_ (hs.le_localStop mem taken))
  rcases hs.localStop_cases with ⟨-, free⟩ | ⟨other, there, takes, same⟩
  · exact absurd (free child mem) taken
  · rw [same]
    exact last other there takes

/-- The stop is the latest end of the children that take a channel. -/
theorem Sound.ends_stop_of_taking : Ends s.start s.taking s.stop.val := by
  rw [hs.stop_exact]
  refine ends_add (fun none => ?_) (fun some => ?_) fun child mem => ?_
  · rcases hs.localStop_cases with ⟨free, -⟩ | ⟨child, mem, taken, -⟩
    · exact free
    · exact absurd none (List.ne_nil_of_mem (mem_taking.2 ⟨mem, taken⟩))
  · rcases hs.localStop_cases with ⟨-, free⟩ | ⟨child, mem, taken, last⟩
    · obtain ⟨child, mem⟩ := List.exists_mem_of_ne_nil _ some
      obtain ⟨mem, taken⟩ := mem_taking.1 mem
      exact absurd (free child mem) taken
    · exact ⟨child, mem_taking.2 ⟨mem, taken⟩, last⟩
  · obtain ⟨mem, taken⟩ := mem_taking.1 mem
    exact hs.le_localStop mem taken

/-- A stop that covers all children is their latest end: with a slot or without, some child ends
there. -/
theorem Sound.ends_stop_of_covers
    (covers : ∀ child ∈ s.children, child.stop.val ≤ s.localStop.val) :
    Ends s.start s.children s.stop.val := by
  rw [hs.stop_exact]
  rcases hs.localStop_cases with ⟨free, -⟩ | ⟨child, mem, -, last⟩
  · refine ends_add (fun _ => free) (fun some => ?_) covers
    obtain ⟨child, mem⟩ := List.exists_mem_of_ne_nil _ some
    have above := covers child mem
    rw [free, Time.val_zero] at above
    rw [free]
    exact ⟨child, mem, Time.ext (Int.le_antisymm (hs.stop_nonneg mem) above)⟩
  · refine ends_add (fun none => ?_) (fun _ => ⟨child, mem, last⟩) covers
    rw [none] at mem
    cases mem

end Sound

/-- In every reachable schedule the stop is the latest end of the children that take a channel, and
the duration leads from the start to the stop.  The extent leads from the start to the latest end
of all children, and the stop is there too if and only if no child without a channel ends after
the last committed slot. -/
theorem ends_stop_iff {s : Schedule} (h : s.Reachable) :
    Ends s.start s.taking s.stop.val ∧
      s.localStop.val = s.stop.val - s.start.val ∧
      Ends s.start s.children (s.start.val + s.extent.val) ∧
      (Ends s.start s.children s.stop.val ↔
        ∀ child ∈ s.children, child.channels = [] → child.stop.val ≤ s.localStop.val) := by
  have exact := h.sound.stop_exact
  refine ⟨h.sound.ends_stop_of_taking, by omega, s.ends_extent, ?_, ?_⟩
  · intro ends child mem _
    have above := (ends.latest (List.ne_nil_of_mem mem)).2 ⟨child, mem, rfl⟩
    omega
  · intro before
    refine h.sound.ends_stop_of_covers fun child mem => ?_
    by_cases free : child.channels = []
    · exact before child mem free
    · exact h.sound.le_localStop mem free

/-- A snapshot within a readout does not outlast it, in a schedule that starts before zero. -/
theorem ends_stop_of_readout :
    ∃ readout mark, Instruction.acquire { duration := 16 } [0] [0] [] = .ok readout ∧
      Instruction.snapshot "state" "half" = .ok mark ∧
      let full := (((new ⟨⟨0⟩⟩).appendInPlace (.instruction readout)).2.insertInPlace
        (Time.ofSamples 8) (.instruction mark)).2
      let early : Schedule := { full with start := ⟨-20, by decide, by decide⟩ }
      early.Reachable ∧ early.stop.val = -4 ∧ early.children.map (·.stop.val) = [16, 8] ∧
        Ends early.start early.children (-4) := by
  refine ⟨_, _, rfl, rfl, ?_⟩
  intro full early
  have readout := @Instruction.built_acquire { duration := 16 } [0] [0] [] _ rfl
  have mark := @Instruction.Built.new (.snapshot "state" "half") [] _ rfl
  have built : full.Reachable := .insertInPlace _ (.appendInPlace (.new _ _) readout) mark
  have started : full.withStart ⟨-20, by decide, by decide⟩ = .ok early := rfl
  have reachable : early.Reachable := .withStart built started
  obtain ⟨-, -, -, covers⟩ := ends_stop_iff reachable
  exact ⟨reachable, rfl, rfl, covers.2 (by decide)⟩

/-- A snapshot outlasts the schedule that it is placed into: it ends at 40, and the schedule stops
where it starts. -/
theorem stop_before_snapshot :
    ∃ mark, Instruction.snapshot "state" "done" = .ok mark ∧
      let s := ((new ⟨⟨0⟩⟩).insertInPlace (Time.ofSamples 40) (.instruction mark)).2
      s.Reachable ∧ s.children.map (·.stop.val) = [40] ∧ s.stop = s.start ∧
        ¬ Ends s.start s.children s.stop.val := by
  refine ⟨_, rfl, ?_⟩
  intro s
  have mark := @Instruction.Built.new (.snapshot "state" "done") [] _ rfl
  refine ⟨.insertInPlace _ (.new _ _) mark, rfl, rfl, fun ends => ?_⟩
  have above := (ends.latest (List.cons_ne_nil _ _)).2 ⟨_, List.mem_singleton_self _, rfl⟩
  revert above
  decide

end QuantumControl.Pulse.Schedule
