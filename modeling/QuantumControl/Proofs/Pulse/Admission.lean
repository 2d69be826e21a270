import Mathlib.Order.Nat
import QuantumControl.Proofs.Pulse.Merging

/-!
# Which lists of slots are admitted

The slots of a list are checked one after the other, those of all channels mixed, against a
table that grows with every slot that passes; and the ends that are compared stop at the
last instant.

What comes of it can be said without table and order.  Slots are `Compatible` if all of them
end in range and no two collide in exact integers, and these lists are the ones that are
admitted.  In any other list some position is refused first (`RefusedAt`): the slots before
it are compatible, so that it is met with exactly their table, and the fault is its own
(`FaultAt`).
-/

namespace QuantumControl.Pulse

variable {γ : Type}

/-! ## Collisions in exact integers -/

/-- The end of an interval in exact integers, in range or not. -/
def Interval.exactStop (i : Interval) : Int := i.start.val + i.duration.toNat

theorem Interval.inRange_iff_exactStop_le {i : Interval} :
    i.inRange ↔ i.exactStop ≤ 9223372036854775807 := by
  rw [inRange_iff, exactStop]
  omega

/-- Two slots on one channel, each of which starts before the exact end of the other. -/
def Timeslot.Collides (s t : Timeslot γ) : Prop :=
  s.channel = t.channel ∧ s.interval.start.val < t.interval.exactStop ∧
    t.interval.start.val < s.interval.exactStop

theorem Timeslot.collides_iff {s t : Timeslot γ} (hs : s.interval.inRange)
    (ht : t.interval.inRange) : s.Collides t ↔ s.Clash t :=
  and_congr_right fun _ => (Interval.overlaps_iff hs ht).symm

theorem Timeslot.Collides.symm {s t : Timeslot γ} (h : s.Collides t) : t.Collides s :=
  ⟨h.1.symm, h.2.2, h.2.1⟩

namespace Occupancy

/-! ## Compatible slots -/

/-- Slots that can be committed together: all end in range, and no two of them collide. -/
structure Compatible (slots : List (Timeslot γ)) : Prop where
  inRange : ∀ slot ∈ slots, slot.interval.exactStop ≤ 9223372036854775807
  apart : slots.Pairwise fun s t => ¬ s.Collides t

theorem Compatible.perm {slots others : List (Timeslot γ)} (h : Compatible slots)
    (perm : slots.Perm others) : Compatible others where
  inRange slot mem := h.inRange slot (perm.mem_iff.2 mem)
  apart := h.apart.perm perm fun apart collide => apart collide.symm

theorem Compatible.sublist {slots fewer : List (Timeslot γ)} (h : Compatible slots)
    (sub : fewer.Sublist slots) : Compatible fewer where
  inRange slot mem := h.inRange slot (sub.mem mem)
  apart := h.apart.sublist sub

/-- Slots are compatible if those at different positions do not collide, whichever comes first. -/
theorem compatible_iff_positions {slots : List (Timeslot γ)} :
    Compatible slots ↔
      (∀ slot ∈ slots, slot.interval.exactStop ≤ 9223372036854775807) ∧
      ∀ i j (hi : i < slots.length) (hj : j < slots.length), i ≠ j →
        ¬ slots[i].Collides slots[j] := by
  have positions : (slots.Pairwise fun s t => ¬ s.Collides t) ↔ _ :=
    pairwise_iff_of_ne fun apart collide => apart collide.symm
  rw [← positions]
  exact ⟨fun h => ⟨h.inRange, h.apart⟩, fun h => ⟨h.1, h.2⟩⟩

/-- Within the range of times, collisions are the clashes that the checks look for. -/
theorem compatible_iff {slots : List (Timeslot γ)} :
    Compatible slots ↔
      (∀ slot ∈ slots, slot.interval.inRange) ∧ slots.Pairwise fun s t => ¬ s.Clash t := by
  constructor
  · rintro ⟨bounds, apart⟩
    have inside : ∀ slot ∈ slots, slot.interval.inRange := fun slot mem =>
      Interval.inRange_iff_exactStop_le.2 (bounds slot mem)
    refine ⟨inside, apart.imp_of_mem fun hs ht apart clash => apart ?_⟩
    exact (Timeslot.collides_iff (inside _ hs) (inside _ ht)).2 clash
  · rintro ⟨inside, apart⟩
    refine ⟨fun slot mem => Interval.inRange_iff_exactStop_le.1 (inside slot mem),
      apart.imp_of_mem fun hs ht apart collide => apart ?_⟩
    exact (Timeslot.collides_iff (inside _ hs) (inside _ ht)).1 collide

/-! ## Positions that are refused -/

theorem getElem?_take_eq_some_iff {α : Type} {l : List α} {i j : Nat} {a : α} :
    (l.take j)[i]? = some a ↔ i < j ∧ l[i]? = some a := by
  rw [List.getElem?_take]
  split
  · next before => exact (and_iff_right before).symm
  · next after => exact ⟨(nomatch ·), fun h => absurd h.1 after⟩

/-- A list around one of its positions. -/
theorem eq_take_append_cons_drop {α : Type} {l : List α} {j : Nat} {a : α} (h : l[j]? = some a) :
    l = l.take j ++ a :: l.drop (j + 1) := by
  obtain ⟨hj, rfl⟩ := List.getElem?_eq_some_iff.1 h
  rw [List.getElem_cons_drop, List.take_append_drop]

/-- The slot at a position ends out of range. -/
def OutsideAt (slots : List (Timeslot γ)) (j : Nat) : Prop :=
  ∃ t, slots[j]? = some t ∧ 9223372036854775807 < t.interval.exactStop

/-- The slots at two positions collide. -/
def CollideAt (slots : List (Timeslot γ)) (k j : Nat) : Prop :=
  ∃ s t, slots[k]? = some s ∧ slots[j]? = some t ∧ s.Collides t

/-- The slot at a position ends out of range, or collides with an earlier one. -/
def RefusedAt (slots : List (Timeslot γ)) (j : Nat) : Prop :=
  OutsideAt slots j ∨ ∃ k < j, CollideAt slots k j

/-- The fault of a position: its own start if it ends out of range, and otherwise the earliest slot
that it collides with. -/
inductive FaultAt (slots : List (Timeslot γ)) (j : Nat) : PulseError → Prop
  | outside {t : Timeslot γ} (new : slots[j]? = some t)
      (h : 9223372036854775807 < t.interval.exactStop) :
      FaultAt slots j (.timeOverflow t.interval.start)
  | collision {k : Nat} {s t : Timeslot γ} (new : slots[j]? = some t) (old : slots[k]? = some s)
      (inside : t.interval.exactStop ≤ 9223372036854775807)
      (earliest : IsLeast {k | k < j ∧ CollideAt slots k j} k) :
      FaultAt slots j (.overlappingTimeslots s.interval t.interval)

theorem exists_isLeast {p : Nat → Prop} (h : ∃ n, p n) : ∃ n, IsLeast {n | p n} n := by
  classical
  exact ⟨Nat.find h, Nat.isLeast_find h⟩

/-- A position that is refused has a fault. -/
theorem RefusedAt.exists_faultAt {slots : List (Timeslot γ)} {j : Nat} (h : RefusedAt slots j) :
    ∃ fault, FaultAt slots j fault := by
  by_cases outside : OutsideAt slots j
  · obtain ⟨t, new, h⟩ := outside
    exact ⟨_, .outside new h⟩
  · obtain ⟨k, earliest⟩ := exists_isLeast (h.resolve_left outside)
    obtain ⟨-, s, t, old, new, -⟩ := earliest.1
    exact ⟨_, .collision new old (Int.not_lt.1 fun h => outside ⟨t, new, h⟩) earliest⟩

theorem compatible_iff_forall_not_refusedAt {slots : List (Timeslot γ)} :
    Compatible slots ↔ ∀ j, ¬ RefusedAt slots j := by
  constructor
  · rintro ⟨inRange, apart⟩ j (⟨t, new, outside⟩ | ⟨k, before, s, t, old, new, collide⟩)
    · exact Int.not_lt.2 (inRange t (List.mem_of_getElem? new)) outside
    · obtain ⟨hk, rfl⟩ := List.getElem?_eq_some_iff.1 old
      obtain ⟨hj, rfl⟩ := List.getElem?_eq_some_iff.1 new
      exact List.pairwise_iff_getElem.1 apart k j hk hj before collide
  · intro clear
    constructor
    · intro slot mem
      obtain ⟨j, new⟩ := List.mem_iff_getElem?.1 mem
      exact Int.not_lt.1 fun outside => clear j (.inl ⟨slot, new, outside⟩)
    · refine List.pairwise_iff_getElem.2 fun k j hk hj before collide => ?_
      exact clear j (.inr ⟨k, before, _, _, List.getElem?_eq_getElem hk,
        List.getElem?_eq_getElem hj, collide⟩)

/-- The slots before the first position that is refused are compatible. -/
theorem compatible_take {slots : List (Timeslot γ)} {j : Nat}
    (first : ∀ i < j, ¬ RefusedAt slots i) : Compatible (slots.take j) := by
  rw [compatible_iff_forall_not_refusedAt]
  rintro i (⟨t, new, outside⟩ | ⟨k, before, s, t, old, new, collide⟩)
  · obtain ⟨earlier, new⟩ := getElem?_take_eq_some_iff.1 new
    exact first i earlier (.inl ⟨t, new, outside⟩)
  · obtain ⟨earlier, new⟩ := getElem?_take_eq_some_iff.1 new
    obtain ⟨-, old⟩ := getElem?_take_eq_some_iff.1 old
    exact first i earlier (.inr ⟨k, before, s, t, old, new, collide⟩)

/-! ## Admission -/

section Admission

variable [DecidableEq γ]

/-- Exactly the compatible lists are admitted. -/
theorem ofSlots_eq_ok_iff_compatible {slots : List (Timeslot γ)} {o : Occupancy γ} :
    ofSlots slots = .ok o ↔
      Compatible slots ∧ o = ⟨slots, slots.foldl Occupancy.enter Table.empty⟩ := by
  rw [ofSlots_eq_ok_iff, compatible_iff, and_comm]

theorem exists_ofSlots_iff {slots : List (Timeslot γ)} :
    (∃ o, ofSlots slots = .ok o) ↔ Compatible slots := by
  simp only [ofSlots_eq_ok_iff_compatible, exists_and_left, exists_eq, and_true]

/-- After compatible slots, a slot that ends out of range is refused for its start, and any other
for the earliest slot that it collides with. -/
theorem ofSlots_of_faultAt {slots : List (Timeslot γ)} {j : Nat} {fault : PulseError}
    (first : IsLeast {j | RefusedAt slots j} j) (h : FaultAt slots j fault) :
    ofSlots slots = .error fault := by
  have before := compatible_take fun i earlier refused => Nat.not_le.2 earlier (first.2 refused)
  have accepted := ofSlots_eq_ok_iff_compatible.2 ⟨before, rfl⟩
  cases h with
  | @outside t new outside =>
      have refused : ¬ t.interval.inRange := fun inside =>
        Int.not_lt.2 (Interval.inRange_iff_exactStop_le.1 inside) outside
      rw [eq_take_append_cons_drop new]
      refine ofSlots_eq_error accepted ?_
      rw [accept, if_pos (by simpa using refused)]
  | @collision k s t new old inside earliest =>
      obtain ⟨⟨earlier, s', t', old', new', collide⟩, least⟩ := earliest
      obtain rfl := Option.some.inj (old'.symm.trans old)
      obtain rfl := Option.some.inj (new'.symm.trans new)
      have old := getElem?_take_eq_some_iff.2 ⟨earlier, old⟩
      have inRange := (compatible_iff.1 before).1
      have inside := Interval.inRange_iff_exactStop_le.2 inside
      rw [eq_take_append_cons_drop new]
      refine ofSlots_eq_error accepted (accept_eq_error (sound_ofSlots accepted).1.indexes inside
        (eq_take_append_cons_drop old)
        ((Timeslot.collides_iff (inRange _ (List.mem_of_getElem? old)) inside).1 collide) ?_)
      -- an earlier clash would be a collision at a position before the least one
      intro r mem clash
      obtain ⟨i, found⟩ := List.mem_iff_getElem?.1 mem
      obtain ⟨before, found⟩ := getElem?_take_eq_some_iff.1 found
      have ranged := inRange _ (List.mem_of_getElem? found)
      have collide := (Timeslot.collides_iff ranged inside).2 clash
      obtain ⟨earlier, found⟩ := getElem?_take_eq_some_iff.1 found
      exact Nat.not_le.2 before (least ⟨earlier, _, _, found, new, collide⟩)

/-- A list of slots is admitted if and only if each slot ends in range, in exact integers, and no
two slots at different positions overlap on one channel; so its order does not matter.  A list that
is not admitted fails with the fault of the first position that is out of range or overlaps an
earlier one. -/
theorem ofSlots_exact (slots : List (Timeslot γ)) :
    ((∃ o, ofSlots slots = .ok o) ↔
      (∀ slot ∈ slots, slot.interval.exactStop ≤ 9223372036854775807) ∧
      ∀ i j (hi : i < slots.length) (hj : j < slots.length), i ≠ j →
        ¬ slots[i].Collides slots[j]) ∧
    (∀ others, slots.Perm others →
      ((∃ o, ofSlots slots = .ok o) ↔ ∃ o, ofSlots others = .ok o)) ∧
    ∀ fault, ofSlots slots = .error fault ↔
      ∃ j, IsLeast {j | RefusedAt slots j} j ∧ FaultAt slots j fault := by
  refine ⟨?_, fun others perm => ?_, fun fault => ⟨fun failed => ?_, ?_⟩⟩
  · rw [exists_ofSlots_iff, compatible_iff_positions]
  · rw [exists_ofSlots_iff, exists_ofSlots_iff]
    exact ⟨fun h => h.perm perm, fun h => h.perm perm.symm⟩
  · have refused : ∃ j, RefusedAt slots j := by
      by_contra none
      have compatible := compatible_iff_forall_not_refusedAt.2 (not_exists.1 none)
      obtain ⟨o, admitted⟩ := exists_ofSlots_iff.2 compatible
      rw [failed] at admitted
      cases admitted
    obtain ⟨j, first⟩ := exists_isLeast refused
    obtain ⟨other, h⟩ := RefusedAt.exists_faultAt first.1
    have same := failed.symm.trans (ofSlots_of_faultAt first h)
    exact ⟨j, first, Except.error.inj same ▸ h⟩
  · rintro ⟨j, first, h⟩
    exact ofSlots_of_faultAt first h

/-- On channel 0 the fourth slot overlaps the first one and the third one, and on channel 1 the last
slot ends out of range. -/
def contested : List (Timeslot Nat) :=
  [⟨⟨.zero, 10⟩, 0⟩, ⟨⟨.ofSamples 3, 0⟩, 1⟩, ⟨⟨.ofSamples 20, 5⟩, 0⟩, ⟨⟨.ofSamples 8, 14⟩, 0⟩,
    ⟨⟨⟨9223372036854775800, by decide, by decide⟩, 10⟩, 1⟩]

/-- The fourth slot is refused for the first one, and no order of the slots is admitted. -/
theorem ofSlots_exact_contested :
    (∃ j, IsLeast {j | RefusedAt contested j} j ∧
      FaultAt contested j (.overlappingTimeslots ⟨.zero, 10⟩ ⟨.ofSamples 8, 14⟩)) ∧
    contested.Perm contested.reverse ∧ ¬ ∃ o, ofSlots contested.reverse = .ok o := by
  obtain ⟨-, order, faults⟩ := ofSlots_exact contested
  have failed : ofSlots contested = .error (.overlappingTimeslots ⟨.zero, 10⟩ ⟨.ofSamples 8, 14⟩) :=
    rfl
  have perm := (List.reverse_perm contested).symm
  refine ⟨(faults _).1 failed, perm, fun admitted => ?_⟩
  obtain ⟨o, admitted⟩ := (order _ perm).2 admitted
  rw [failed] at admitted
  cases admitted

end Admission

end Occupancy

end QuantumControl.Pulse
