import QuantumControl.Proofs.Pulse.Admission
import QuantumControl.Proofs.Pulse.Time

/-!
# Occupancies that are put together

However an occupancy came about, its table is the one that its slots give when they are
entered in order.  So it is what its slots make when they are admitted at once
(`reachable_iff`), and two occupancies with the same slots are the same (`Reachable.ext`).

Merging is then nothing but appending lists of slots, as far as the result is compatible.
What lies within a compatible list is compatible: so all ways to group three occupancies
come down to the one list that they end with, and where one of them fails in its first
step, another may fail in its second only.
-/

namespace QuantumControl.Pulse.Occupancy

variable {γ : Type} [DecidableEq γ]

/-! ## Occupancies as lists of slots -/

/-- The occupancy of a list of slots, without a check. -/
def gathered (slots : List (Timeslot γ)) : Occupancy γ :=
  ⟨slots, slots.foldl Occupancy.enter Table.empty⟩

theorem ofSlots_eq_ok_iff_gathered {slots : List (Timeslot γ)} {o : Occupancy γ} :
    ofSlots slots = .ok o ↔ Compatible slots ∧ o = gathered slots :=
  ofSlots_eq_ok_iff_compatible

theorem mergedUnchecked_gathered (slots more : List (Timeslot γ)) :
    (gathered slots).mergedUnchecked (gathered more) = gathered (slots ++ more) := by
  rw [gathered, gathered, gathered, mergedUnchecked, List.foldl_append]

/-- The table with every interval moved by a time. -/
def movedTable (table : Table γ (List Interval)) (time : Time) : Table γ (List Interval) :=
  (moved ⟨[], table⟩ time).table

/-- A slot is entered before a move or after it. -/
theorem movedTable_enter (table : Table γ (List Interval)) (slot : Timeslot γ) (time : Time) :
    movedTable (enter table slot) time = enter (movedTable table time) (slot.moved time) := by
  have entered (taken : Option (List Interval)) :
      (taken.getD [] ++ [slot.interval]).map (·.moved time) =
        (taken.map fun is => is.map (·.moved time)).getD [] ++ [slot.interval.moved time] := by
    cases taken with
    | none => rfl
    | some is => exact List.map_append
  exact Table.ext (Table.map_alterEntries _ entered slot.channel table.entries)

theorem movedTable_foldl_enter (table : Table γ (List Interval)) (slots : List (Timeslot γ))
    (time : Time) :
    movedTable (slots.foldl enter table) time =
      (slots.map (·.moved time)).foldl enter (movedTable table time) := by
  induction slots generalizing table with
  | nil => rfl
  | cons slot slots ih => rw [List.foldl_cons, ih, movedTable_enter, List.map_cons, List.foldl_cons]

theorem moved_gathered (slots : List (Timeslot γ)) (time : Time) :
    (gathered slots).moved time = gathered (slots.map (·.moved time)) :=
  congrArg (Occupancy.mk _) (movedTable_foldl_enter Table.empty slots time)

/-- A reachable occupancy is the one of its slots. -/
theorem Reachable.eq_gathered {o : Occupancy γ} (h : o.Reachable) : o = gathered o.slots := by
  induction h with
  | empty => rfl
  | ofSlots h => obtain ⟨-, rfl⟩ := ofSlots_eq_ok_iff_gathered.1 h; rfl
  | merged _ _ h => obtain ⟨-, rfl⟩ := ofSlots_eq_ok_iff_gathered.1 h; rfl
  | @mergedUnchecked a b _ _ _ iha ihb =>
      calc a.mergedUnchecked b
        _ = (gathered a.slots).mergedUnchecked (gathered b.slots) := by rw [← iha, ← ihb]
        _ = gathered (a.slots ++ b.slots) := mergedUnchecked_gathered a.slots b.slots
  | @shifted a _ time ha h ih =>
      obtain ⟨-, -, rfl⟩ := ha.sound.shifted_eq_ok h
      calc a.moved time
        _ = (gathered a.slots).moved time := by rw [← ih]
        _ = gathered (a.slots.map (·.moved time)) := moved_gathered a.slots time

/-- Reachable occupancies with the same slots are the same. -/
theorem Reachable.ext {a b : Occupancy γ} (ha : a.Reachable) (hb : b.Reachable)
    (h : a.slots = b.slots) : a = b := by
  rw [ha.eq_gathered, hb.eq_gathered, h]

theorem Sound.compatible {o : Occupancy γ} (h : o.Sound) : Compatible o.slots :=
  compatible_iff.2 ⟨h.inRange, h.apart⟩

/-- What can be reached at all is reached by admitting its slots at once. -/
theorem reachable_iff {o : Occupancy γ} : o.Reachable ↔ ofSlots o.slots = .ok o :=
  ⟨fun h => ofSlots_eq_ok_iff_gathered.2 ⟨h.sound.compatible, h.eq_gathered⟩, .ofSlots⟩

/-! ## Merging as appending -/

section Merging

variable {a b c o : Occupancy γ}

theorem merged_eq_ok_iff :
    a.merged b = .ok o ↔ Compatible (a.slots ++ b.slots) ∧ o = gathered (a.slots ++ b.slots) :=
  ofSlots_eq_ok_iff_gathered

theorem exists_merged_iff : (∃ o, a.merged b = .ok o) ↔ Compatible (a.slots ++ b.slots) :=
  exists_ofSlots_iff

theorem merged_left_eq_ok_iff :
    (a.merged b >>= (·.merged c)) = .ok o ↔
      Compatible (a.slots ++ b.slots ++ c.slots) ∧
        o = gathered (a.slots ++ b.slots ++ c.slots) := by
  rw [bind_eq_ok_iff]
  constructor
  · rintro ⟨ab, first, second⟩
    obtain ⟨-, rfl⟩ := merged_eq_ok_iff.1 first
    exact merged_eq_ok_iff.1 second
  · rintro ⟨compatible, rfl⟩
    have within := compatible.sublist (List.sublist_append_left _ _)
    exact ⟨_, merged_eq_ok_iff.2 ⟨within, rfl⟩, merged_eq_ok_iff.2 ⟨compatible, rfl⟩⟩

theorem merged_right_eq_ok_iff :
    (b.merged c >>= (a.merged ·)) = .ok o ↔
      Compatible (a.slots ++ (b.slots ++ c.slots)) ∧
        o = gathered (a.slots ++ (b.slots ++ c.slots)) := by
  rw [bind_eq_ok_iff]
  constructor
  · rintro ⟨bc, first, second⟩
    obtain ⟨-, rfl⟩ := merged_eq_ok_iff.1 first
    exact merged_eq_ok_iff.1 second
  · rintro ⟨compatible, rfl⟩
    have within := compatible.sublist (List.sublist_append_right _ _)
    exact ⟨_, merged_eq_ok_iff.2 ⟨within, rfl⟩, merged_eq_ok_iff.2 ⟨compatible, rfl⟩⟩

theorem merged_assoc :
    (a.merged b >>= (·.merged c)) = .ok o ↔ (b.merged c >>= (a.merged ·)) = .ok o := by
  rw [merged_left_eq_ok_iff, merged_right_eq_ok_iff, List.append_assoc]

theorem exists_merged_comm : (∃ o, a.merged b = .ok o) ↔ ∃ o, b.merged a = .ok o := by
  rw [exists_merged_iff, exists_merged_iff]
  exact ⟨fun h => h.perm List.perm_append_comm, fun h => h.perm List.perm_append_comm⟩

/-- A merge has, on each channel, the intervals of both sides. -/
theorem intervals_merged (h : a.merged b = .ok o) (channel : γ) :
    o.intervals channel = on a.slots channel ++ on b.slots channel := by
  obtain ⟨sound, slots⟩ := sound_ofSlots h
  rw [sound.intervals_eq, slots, on_append]

/-- A merge stops with the one of both sides that stops later. -/
theorem stop?_merged (h : a.merged b = .ok o) : o.stop? = a.stop?.merge Time.max b.stop? := by
  rw [stop?, (sound_ofSlots h).2, List.map_append, Time.latest?_append]
  rfl

theorem size_merged (h : a.merged b = .ok o) : o.size = a.size + b.size := by
  rw [size, (sound_ofSlots h).2, List.length_append]
  rfl

theorem empty_merged (ha : a.Reachable) : empty.merged a = .ok a := reachable_iff.1 ha

theorem merged_empty (ha : a.Reachable) : a.merged empty = .ok a := by
  rw [merged, show (empty : Occupancy γ).slots = [] from rfl, List.append_nil]
  exact reachable_iff.1 ha

end Merging

/-- Merging is a partial commutative monoid.  The empty occupancy is neutral for the reachable ones;
all other laws hold of any occupancies, as a merge checks every slot again.  Two can be merged in
either order or in none; the order changes the order of the intervals on a channel alone, and the
merge stops where the later of the two stops.  Three can be merged in either grouping or in none,
and the groupings give the same occupancy, with the same slots and the same intervals on every
channel.  A merge has as many slots as both sides together. -/
theorem merged_partial_monoid {a : Occupancy γ} (ha : a.Reachable) (b c : Occupancy γ) :
    (empty.merged a = .ok a ∧ a.merged empty = .ok a) ∧
    ((∃ o, a.merged b = .ok o) ↔ ∃ o, b.merged a = .ok o) ∧
    (∀ o p, a.merged b = .ok o → b.merged a = .ok p →
      (∀ channel, (o.intervals channel).Perm (p.intervals channel)) ∧
        o.stop? = p.stop? ∧ o.stop? = a.stop?.merge Time.max b.stop?) ∧
    (∀ o, (a.merged b >>= (·.merged c)) = .ok o ↔ (b.merged c >>= (a.merged ·)) = .ok o) ∧
    ∀ o, a.merged b = .ok o → o.size = a.size + b.size := by
  refine ⟨⟨empty_merged ha, merged_empty ha⟩, exists_merged_comm, fun o p first second => ?_,
    fun o => merged_assoc, fun o => size_merged⟩
  refine ⟨fun channel => ?_, ?_, stop?_merged first⟩
  · rw [intervals_merged first, intervals_merged second]
    exact List.perm_append_comm
  · rw [stop?, stop?, (sound_ofSlots first).2, (sound_ofSlots second).2]
    exact Time.latest?_perm (List.perm_append_comm.map _)

/-- Three occupancies that meet without overlap on two channels, and a fourth one that fits the
first and overlaps the second. -/
theorem merged_partial_monoid_relay :
    ∃ a b c d : Occupancy Nat, ofSlots readout = .ok a ∧
      ofSlots [⟨⟨.ofSamples 10, 10⟩, 0⟩, ⟨⟨.ofSamples 4, 0⟩, 1⟩] = .ok b ∧
      ofSlots [⟨⟨.ofSamples 4, 2⟩, 1⟩, ⟨⟨.ofSamples 20, 5⟩, 0⟩] = .ok c ∧
      ofSlots [⟨⟨.ofSamples 15, 1⟩, 0⟩] = .ok d ∧ a.Reachable ∧
      (∃ o, (a.merged b >>= (·.merged c)) = .ok o ∧ (b.merged c >>= (a.merged ·)) = .ok o) ∧
      (∃ o p, a.merged b = .ok o ∧ b.merged a = .ok p ∧
        o.stop? = some (.ofSamples 20) ∧ (o.intervals 1).Perm (p.intervals 1)) ∧
      (∃ o, a.merged b = .ok o) ∧ ¬ ∃ o, (b.merged d >>= (a.merged ·)) = .ok o := by
  refine ⟨_, _, _, _, rfl, rfl, rfl, rfl, ?_⟩
  have reachable := @Reachable.ofSlots Nat _ readout _ rfl
  obtain ⟨-, -, either, grouped, -⟩ := merged_partial_monoid reachable
    (gathered [⟨⟨.ofSamples 10, 10⟩, 0⟩, ⟨⟨.ofSamples 4, 0⟩, 1⟩])
    (gathered [⟨⟨.ofSamples 4, 2⟩, 1⟩, ⟨⟨.ofSamples 20, 5⟩, 0⟩])
  obtain ⟨-, -, -, clash, -⟩ := merged_partial_monoid reachable
    (gathered [⟨⟨.ofSamples 10, 10⟩, 0⟩, ⟨⟨.ofSamples 4, 0⟩, 1⟩])
    (gathered [⟨⟨.ofSamples 15, 1⟩, 0⟩])
  refine ⟨reachable, ⟨_, rfl, (grouped _).1 rfl⟩, ⟨_, _, rfl, rfl, rfl, (either _ _ rfl rfl).1 1⟩,
    ⟨_, rfl⟩, ?_⟩
  rintro ⟨o, made⟩
  cases (clash o).2 made

end QuantumControl.Pulse.Occupancy
