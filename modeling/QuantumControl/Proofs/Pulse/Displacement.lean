import Mathlib.Data.List.Forall2
import QuantumControl.Proofs.Pulse.Composition

/-!
# Occupancies that are moved

Moving an occupancy moves the slots of its list and the intervals of its table along two
paths, and nothing is checked afterwards but that every end is in range (`CanShift`).  In a
sound occupancy no more is needed: ends do not stop at the last instant, so that slots moved
by the same time overlap as little as before.

Reachable occupancies with the same slots are the same, so that the laws of moving follow
from what happens to the slots: two moves are as good as one, and a merge is moved by moving
both sides.
-/

namespace QuantumControl.Pulse

/-- The second interval is the first one, later by exactly a time. -/
structure Interval.Delayed (time : Time) (i j : Interval) : Prop where
  start : j.start.val = i.start.val + time.val
  duration : j.duration = i.duration

theorem Interval.delayed_moved {i : Interval} {time : Time} (h : i.CanMove time) :
    i.Delayed time (i.moved time) :=
  ⟨moved_start h, rfl⟩

/-- An interval can be moved to a later time if it ends in range there. -/
theorem Interval.canMove_iff_of_nonneg {i : Interval} {time : Time} (later : 0 ≤ time.val) :
    i.CanMove time ↔ i.exactStop + time.val ≤ 9223372036854775807 := by
  have lower := i.start.lower
  unfold CanMove exactStop
  omega

theorem Interval.exactStop_moved {i : Interval} {time : Time} (h : i.CanMove time) :
    (i.moved time).exactStop = i.exactStop + time.val := by
  unfold exactStop
  rw [moved_start h, moved_duration]
  omega

/-- Two moves are as good as one. -/
theorem Interval.moved_moved {i : Interval} {s t u : Time} (first : i.CanMove s)
    (second : (i.moved s).CanMove t) (sum : u.val = s.val + t.val) :
    (i.moved s).moved t = i.moved u := by
  have once : i.CanMove u := by
    have bounds := second
    unfold CanMove at bounds ⊢
    rw [moved_start first, moved_duration] at bounds
    omega
  refine congrArg (Interval.mk · i.duration) (Time.ext ?_)
  show ((i.moved s).moved t).start.val = (i.moved u).start.val
  rw [moved_start second, moved_start first, moved_start once]
  omega

namespace Occupancy

variable {γ : Type}

/-- The occupancy can be moved to a later time: each slot ends in range there. -/
structure CanShift (o : Occupancy γ) (time : Time) : Prop where
  later : 0 ≤ time.val
  fits : ∀ slot ∈ o.slots, slot.interval.exactStop + time.val ≤ 9223372036854775807

theorem CanShift.canMove {o : Occupancy γ} {time : Time} (h : o.CanShift time) :
    ∀ slot ∈ o.slots, slot.interval.CanMove time := fun slot mem =>
  (Interval.canMove_iff_of_nonneg h.later).2 (h.fits slot mem)

/-- Moved one after the other, the slots end where they end at the sum of both times. -/
theorem canShift_add_iff {o : Occupancy γ} {s t u : Time} (first : 0 ≤ s.val) (second : 0 ≤ t.val)
    (sum : u.val = s.val + t.val) :
    o.CanShift u ↔ o.CanShift s ∧ (o.moved s).CanShift t := by
  constructor
  · rintro ⟨-, fits⟩
    have half : o.CanShift s := ⟨first, fun slot mem => by have := fits slot mem; omega⟩
    refine ⟨half, second, List.forall_mem_map.2 fun slot mem => ?_⟩
    have ends := fits slot mem
    rw [Timeslot.moved_interval, Interval.exactStop_moved (half.canMove slot mem)]
    omega
  · rintro ⟨half, -, fits⟩
    refine ⟨by omega, fun slot mem => ?_⟩
    have ends := fits _ (List.mem_map_of_mem mem)
    rw [Timeslot.moved_interval, Interval.exactStop_moved (half.canMove slot mem)] at ends
    omega

/-- No occupancy moves to an earlier time. -/
theorem shifted_of_neg (o : Occupancy γ) {time : Time} (h : time.val < 0) :
    o.shifted time = .error (.negativeShift time) := by
  rw [Occupancy.shifted, if_pos (Time.lt_iff_val.2 h)]

variable [DecidableEq γ]

/-- The second occupancy is the first one, later by exactly a time: slot by slot in the list, and
interval by interval in the table. -/
structure Delayed (time : Time) (o p : Occupancy γ) : Prop where
  slots : List.Forall₂ (fun s t => t.channel = s.channel ∧ s.interval.Delayed time t.interval)
    o.slots p.slots
  channels : p.table.keys = o.table.keys
  intervals : ∀ channel,
    List.Forall₂ (Interval.Delayed time) (o.intervals channel) (p.intervals channel)

/-! ## Moves -/

section Moves

variable {o p : Occupancy γ} (ho : o.Sound) {time : Time}

include ho

/-- A sound occupancy can be moved if each slot ends in range at the later time. -/
theorem Sound.shifted_eq_ok_iff :
    o.shifted time = .ok p ↔ o.CanShift time ∧ p = o.moved time := by
  constructor
  · intro h
    obtain ⟨later, all, moved⟩ := ho.shifted_eq_ok h
    exact ⟨⟨later, fun slot mem => (Interval.canMove_iff_of_nonneg later).1 (all slot mem)⟩, moved⟩
  · rintro ⟨can, rfl⟩
    rw [ho.shifted_eq, if_neg (Int.not_lt.2 can.later), if_pos can.canMove]

theorem Sound.exists_shifted_iff : (∃ p, o.shifted time = .ok p) ↔ o.CanShift time := by
  simp only [ho.shifted_eq_ok_iff, exists_and_left, exists_eq, and_true]

/-- A move to a later time that fails goes out of range. -/
theorem Sound.shifted_eq_error (later : 0 ≤ time.val) (h : ¬ o.CanShift time) :
    o.shifted time = .error (.timeOverflow time) := by
  rw [ho.shifted_eq, if_neg (Int.not_lt.2 later), if_neg]
  intro all
  exact h ⟨later, fun slot mem => (Interval.canMove_iff_of_nonneg later).1 (all slot mem)⟩

/-- A move takes the slots of the list and the intervals of the table along alike. -/
theorem Sound.delayed_moved (h : o.CanShift time) : o.Delayed time (o.moved time) where
  slots := by
    rw [slots_moved, List.forall₂_map_right_iff, List.forall₂_same]
    exact fun slot mem => ⟨rfl, Interval.delayed_moved (h.canMove slot mem)⟩
  channels := by
    show (o.table.entries.map _).map Prod.fst = o.table.entries.map Prod.fst
    rw [List.map_map]
    rfl
  intervals channel := by
    rw [(ho.moved h.canMove).intervals_eq, ho.intervals_eq, slots_moved, on_map_moved,
      List.forall₂_map_right_iff, List.forall₂_same]
    intro i mem
    obtain ⟨slot, taken, -, rfl⟩ := mem_on.1 mem
    exact Interval.delayed_moved (h.canMove slot taken)

end Moves

/-! ## Two moves -/

section Twice

variable {o p : Occupancy γ} (ho : o.Reachable) {s t u : Time}

include ho

theorem Reachable.moved (h : o.CanShift s) : (o.moved s).Reachable :=
  ho.shifted (ho.sound.shifted_eq_ok_iff.2 ⟨h, rfl⟩)

theorem Reachable.moved_moved (first : o.CanShift s) (second : (o.moved s).CanShift t)
    (sum : u.val = s.val + t.val) : (o.moved s).moved t = o.moved u := by
  have once := (canShift_add_iff first.later second.later sum).2 ⟨first, second⟩
  refine ((ho.moved first).moved second).ext (ho.moved once) ?_
  rw [slots_moved, slots_moved, slots_moved, List.map_map]
  refine List.map_congr_left fun slot mem => congrArg (Timeslot.mk · slot.channel) ?_
  exact Interval.moved_moved (first.canMove slot mem)
    (second.canMove _ (List.mem_map_of_mem mem)) sum

/-- Two moves to a later time go as far as the one by both times, and fail where it fails. -/
theorem Reachable.shifted_twice_eq_ok_iff (first : 0 ≤ s.val) (second : 0 ≤ t.val)
    (sum : u.val = s.val + t.val) :
    (o.shifted s >>= (·.shifted t)) = .ok p ↔ o.shifted u = .ok p := by
  rw [bind_eq_ok_iff, ho.sound.shifted_eq_ok_iff, canShift_add_iff first second sum]
  constructor
  · rintro ⟨half, h, h'⟩
    obtain ⟨can, rfl⟩ := ho.sound.shifted_eq_ok_iff.1 h
    obtain ⟨can', rfl⟩ := (ho.moved can).sound.shifted_eq_ok_iff.1 h'
    exact ⟨⟨can, can'⟩, ho.moved_moved can can' sum⟩
  · rintro ⟨⟨can, can'⟩, rfl⟩
    refine ⟨_, ho.sound.shifted_eq_ok_iff.2 ⟨can, rfl⟩, ?_⟩
    rw [← ho.moved_moved can can' sum]
    exact (ho.moved can).sound.shifted_eq_ok_iff.2 ⟨can', rfl⟩

end Twice

/-! ## Moves and merges -/

section Merges

variable {a b : Occupancy γ} {time : Time}

/-- Moved by the same time, two occupancies are mergeable if they were. -/
theorem Sound.mergeableWith_moved (ha : a.Sound) (hb : b.Sound) (ma : a.CanShift time)
    (mb : b.CanShift time) :
    (a.moved time).mergeableWith (b.moved time) = a.mergeableWith b := by
  rw [Bool.eq_iff_iff, mergeableWith_iff (ha.moved ma.canMove).indexes,
    mergeableWith_iff ha.indexes, slots_moved, slots_moved]
  simp only [List.forall_mem_map]
  refine forall₂_congr fun s hs => forall₂_congr fun t ht => not_congr ?_
  exact Timeslot.clash_moved (ha.inRange s hs) (hb.inRange t ht) (ma.canMove s hs)
    (mb.canMove t ht)

theorem canShift_mergedUnchecked :
    (a.mergedUnchecked b).CanShift time ↔ a.CanShift time ∧ b.CanShift time := by
  constructor
  · rintro ⟨later, fits⟩
    obtain ⟨first, second⟩ := List.forall_mem_append.1 fits
    exact ⟨⟨later, first⟩, ⟨later, second⟩⟩
  · rintro ⟨⟨later, first⟩, ⟨-, second⟩⟩
    exact ⟨later, List.forall_mem_append.2 ⟨first, second⟩⟩

/-- A merge is moved by moving both sides. -/
theorem moved_mergedUnchecked :
    (a.mergedUnchecked b).moved time = (a.moved time).mergedUnchecked (b.moved time) := by
  have table := movedTable_foldl_enter a.table b.slots time
  have slots : (a.slots ++ b.slots).map (·.moved time) =
      a.slots.map (·.moved time) ++ b.slots.map (·.moved time) := List.map_append
  exact congrArg₂ Occupancy.mk slots table

/-- Both ways to merge reachable occupancies that are mergeable lead to one occupancy. -/
theorem Reachable.merged_eq (ha : a.Reachable) (hb : b.Reachable) (h : a.mergeableWith b) :
    a.merged b = .ok (a.mergedUnchecked b) :=
  reachable_iff.1 (.mergedUnchecked ha hb h)

end Merges

/-- Moving reachable occupancies is exact.  A move to a later time succeeds if and only if each slot
ends in range there, and fails with an overflow otherwise; it takes every slot, and every interval
of the table, along by exactly that time and in their order.  Two such moves are as good as one by
the sum of both times.  Two occupancies moved by the same time are mergeable if and only if they
were; and if they are, their merge can be moved if and only if both can, and is then the merge of
the two moved ones.  To an earlier time no occupancy moves at all. -/
theorem shifted_exact {a b : Occupancy γ} (ha : a.Reachable) (hb : b.Reachable) :
    (∀ time : Time, 0 ≤ time.val →
      ((∃ o, a.shifted time = .ok o) ↔
        ∀ slot ∈ a.slots, slot.interval.exactStop + time.val ≤ 9223372036854775807) ∧
      ((¬ ∃ o, a.shifted time = .ok o) → a.shifted time = .error (.timeOverflow time)) ∧
      ∀ o, a.shifted time = .ok o → a.Delayed time o) ∧
    (∀ s t u : Time, 0 ≤ s.val → 0 ≤ t.val → u.val = s.val + t.val →
      ∀ o, (a.shifted s >>= (·.shifted t)) = .ok o ↔ a.shifted u = .ok o) ∧
    (∀ (time : Time) (a' b' : Occupancy γ), a.shifted time = .ok a' → b.shifted time = .ok b' →
      a'.mergeableWith b' = a.mergeableWith b) ∧
    (a.mergeableWith b → a.merged b = .ok (a.mergedUnchecked b) ∧ ∀ time : Time, 0 ≤ time.val →
      ((∃ o, (a.mergedUnchecked b).shifted time = .ok o) ↔
        (∃ a', a.shifted time = .ok a') ∧ ∃ b', b.shifted time = .ok b') ∧
      ∀ a' b', a.shifted time = .ok a' → b.shifted time = .ok b' →
        (a.mergedUnchecked b).shifted time = a'.merged b') ∧
    ∀ (o : Occupancy γ) (time : Time), time.val < 0 →
      o.shifted time = .error (.negativeShift time) := by
  have soundA := ha.sound
  have soundB := hb.sound
  refine ⟨fun time later => ⟨?_, fun none => ?_, fun o moved => ?_⟩,
    fun s t u first second sum o => ha.shifted_twice_eq_ok_iff first second sum,
    fun time a' b' movedA movedB => ?_, fun mergeable => ⟨ha.merged_eq hb mergeable, ?_⟩,
    fun o time => o.shifted_of_neg⟩
  · rw [soundA.exists_shifted_iff]
    exact ⟨fun can => can.fits, fun fits => ⟨later, fits⟩⟩
  · exact soundA.shifted_eq_error later (mt soundA.exists_shifted_iff.2 none)
  · obtain ⟨can, rfl⟩ := soundA.shifted_eq_ok_iff.1 moved
    exact soundA.delayed_moved can
  · obtain ⟨canA, rfl⟩ := soundA.shifted_eq_ok_iff.1 movedA
    obtain ⟨canB, rfl⟩ := soundB.shifted_eq_ok_iff.1 movedB
    exact soundA.mergeableWith_moved soundB canA canB
  · intro time later
    have sound := soundA.mergedUnchecked soundB mergeable
    refine ⟨?_, fun a' b' movedA movedB => ?_⟩
    · rw [sound.exists_shifted_iff, soundA.exists_shifted_iff, soundB.exists_shifted_iff,
        canShift_mergedUnchecked]
    · obtain ⟨canA, rfl⟩ := soundA.shifted_eq_ok_iff.1 movedA
      obtain ⟨canB, rfl⟩ := soundB.shifted_eq_ok_iff.1 movedB
      have still : (a.moved time).mergeableWith (b.moved time) := by
        rwa [soundA.mergeableWith_moved soundB canA canB]
      rw [(ha.moved canA).merged_eq (hb.moved canB) still, ← moved_mergedUnchecked]
      exact sound.shifted_eq_ok_iff.2 ⟨canShift_mergedUnchecked.2 ⟨canA, canB⟩, rfl⟩

/-- A pulse before zero, and an instant on another channel. -/
def earlyPulse : List (Timeslot Nat) :=
  [⟨⟨⟨-20, by decide, by decide⟩, 10⟩, 0⟩, ⟨⟨⟨-5, by decide, by decide⟩, 0⟩, 1⟩]

/-- A pulse that follows it. -/
def nextPulse : List (Timeslot Nat) := [⟨⟨⟨-10, by decide, by decide⟩, 10⟩, 0⟩]

/-- What ends at zero can be moved to the last instant, in two steps or in one, by itself or merged;
and the empty occupancy cannot be moved to an earlier time. -/
theorem shifted_exact_early :
    ∃ a b : Occupancy Nat, ofSlots earlyPulse = .ok a ∧ ofSlots nextPulse = .ok b ∧
      a.Reachable ∧ b.Reachable ∧ a.mergeableWith b ∧
      let last : Time := ⟨9223372036854775807, by decide, by decide⟩
      let half : Time := ⟨4611686018427387904, by decide, by decide⟩
      let rest : Time := ⟨4611686018427387903, by decide, by decide⟩
      let back : Time := ⟨-1, by decide, by decide⟩
      last.val = half.val + rest.val ∧
        (∃ o, (a.shifted half >>= (·.shifted rest)) = .ok o ∧ a.shifted last = .ok o) ∧
        (∃ o, (a.mergedUnchecked b).shifted last = .ok o) ∧
        (Occupancy.empty : Occupancy Nat).shifted back = .error (.negativeShift back) := by
  refine ⟨_, _, rfl, rfl, ?_⟩
  have ha := @Reachable.ofSlots Nat _ earlyPulse _ rfl
  have hb := @Reachable.ofSlots Nat _ nextPulse _ rfl
  refine ⟨ha, hb, rfl, ?_⟩
  intro last half rest back
  obtain ⟨move, twice, -, merge, backwards⟩ := shifted_exact ha hb
  obtain ⟨other, -⟩ := shifted_exact hb ha
  have moved := (move last (by decide)).1.2 (by decide)
  have moved' := (other last (by decide)).1.2 (by decide)
  obtain ⟨o, once⟩ := moved
  have both := ((merge rfl).2 last (by decide)).1.2 ⟨⟨o, once⟩, moved'⟩
  exact ⟨rfl, ⟨o, (twice half rest last (by decide) (by decide) rfl o).2 once, once⟩, both,
    backwards _ back (by decide)⟩

end Occupancy

end QuantumControl.Pulse
