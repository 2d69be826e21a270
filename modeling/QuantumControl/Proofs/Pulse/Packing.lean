import Mathlib.Algebra.Ring.Nat
import Mathlib.Data.List.Sort
import QuantumControl.Proofs.Pulse.Merging

/-!
# Channels that are never taken twice

The checks of an occupancy compare two intervals at a time, in the order in which the slots
arrive.  Sorted by start, and by stop among those that start together (`Occupancy.agenda`),
the intervals of a channel come one after the other: what precedes an interval without
overlap stops before it starts.  Ties between starts do no harm, as an interval of length
zero precedes the others that start with it.

So the durations of a channel fit, one after the other, between its earliest start and its
latest stop.
-/

namespace QuantumControl.Pulse

/-! ## Intervals one after the other -/

namespace Interval

/-- Sorted by start, and then by stop. -/
def Precedes (i j : Interval) : Prop :=
  i.start.val < j.start.val ∨ i.start.val = j.start.val ∧ i.stop.val ≤ j.stop.val

instance : DecidableRel Precedes := fun i j =>
  inferInstanceAs (Decidable (i.start.val < j.start.val ∨ _ ∧ _))

instance : Std.Total Precedes where
  total i j := by
    unfold Precedes
    omega

instance : IsTrans Interval Precedes where
  trans i j k first second := by
    unfold Precedes at *
    omega

/-- The instant lies in the half-open window of the interval. -/
def Covers (i : Interval) (t : Int) : Prop := i.start.val ≤ t ∧ t < i.stop.val

/-- The interval lies strictly inside another one. -/
def Inside (i j : Interval) : Prop := j.start.val < i.start.val ∧ i.stop.val < j.stop.val

/-- One interval stops before the other starts, or as it starts. -/
def Until (i j : Interval) : Prop := i.stop.val ≤ j.start.val

theorem start_le_stop {i : Interval} (h : i.inRange) : i.start.val ≤ i.stop.val := by
  rw [stop_val h]
  omega

/-- What precedes an interval without overlap stops before it starts. -/
theorem Precedes.until {i j : Interval} (h : i.Precedes j) (inside : j.inRange)
    (apart : ¬ i.Overlaps j) : i.Until j := by
  have forward := start_le_stop inside
  rw [overlaps_iff_val] at apart
  unfold Precedes at h
  unfold Until
  omega

theorem Covers.overlaps {i j : Interval} {t : Int} (hi : i.Covers t) (hj : j.Covers t) :
    i.Overlaps j :=
  overlaps_iff_val.2 ⟨Int.lt_of_le_of_lt hi.1 hj.2, Int.lt_of_le_of_lt hj.1 hi.2⟩

theorem Inside.overlaps {i j : Interval} (h : i.Inside j) (inside : i.inRange) : i.Overlaps j := by
  have forward := start_le_stop inside
  exact overlaps_iff_val.2
    ⟨Int.lt_of_le_of_lt forward h.2, Int.lt_of_lt_of_le h.1 forward⟩

end Interval

/-- Intervals one after the other last no longer than the window that they lie in. -/
theorem sum_duration_le {is : List Interval} {first last : Int} (inRange : ∀ i ∈ is, i.inRange)
    (order : is.Pairwise Interval.Until) (window : first ≤ last)
    (starts : ∀ i ∈ is, first ≤ i.start.val) (stops : ∀ i ∈ is, i.stop.val ≤ last) :
    (is.map (·.duration.toNat)).sum ≤ last - first := by
  induction is generalizing first with
  | nil => simpa using window
  | cons i is ih =>
      rw [List.forall_mem_cons] at inRange starts stops
      rw [List.pairwise_cons] at order
      -- the rest lies in what the first interval leaves of the window
      have rest := ih inRange.2 order.2 stops.1 order.1 stops.2
      have stop := Interval.stop_val inRange.1
      have start := starts.1
      rw [List.map_cons, List.sum_cons]
      omega

namespace Occupancy

variable {γ : Type} [DecidableEq γ]

/-- The intervals taken on a channel, sorted by start and then by stop. -/
def agenda (o : Occupancy γ) (channel : γ) : List Interval :=
  (o.intervals channel).insertionSort Interval.Precedes

theorem agenda_perm (o : Occupancy γ) (channel : γ) :
    (o.agenda channel).Perm (o.intervals channel) :=
  List.perm_insertionSort _ _

section Sound

variable {o : Occupancy γ} (ho : o.Sound) (channel : γ)

include ho

theorem Sound.inRange_intervals : ∀ i ∈ o.intervals channel, i.inRange := by
  intro i mem
  rw [ho.intervals_eq] at mem
  obtain ⟨slot, taken, -, rfl⟩ := mem_on.1 mem
  exact ho.inRange slot taken

theorem Sound.apart_intervals :
    (o.intervals channel).Pairwise fun i j => ¬ i.Overlaps j := by
  rw [ho.intervals_eq, on, List.pairwise_map, List.pairwise_filter]
  refine ho.apart.imp fun apart hs ht overlap => apart ⟨?_, overlap⟩
  exact (of_decide_eq_true hs).trans (of_decide_eq_true ht).symm

/-- Sorted, the intervals of a channel come one after the other. -/
theorem Sound.pairwise_agenda : (o.agenda channel).Pairwise Interval.Until := by
  have perm := o.agenda_perm channel
  have sorted : (o.agenda channel).Pairwise Interval.Precedes := List.pairwise_insertionSort _ _
  have apart := (ho.apart_intervals channel).perm perm.symm fun apart overlap => apart overlap.symm
  refine (sorted.and apart).imp_of_mem fun _ mem ⟨precedes, apart⟩ => precedes.until ?_ apart
  exact ho.inRange_intervals channel _ (perm.mem_iff.1 mem)

/-- The durations of a channel fit into each window that its intervals lie in. -/
theorem Sound.sum_duration_le {first last : Int} (window : first ≤ last)
    (starts : ∀ i ∈ o.intervals channel, first ≤ i.start.val)
    (stops : ∀ i ∈ o.intervals channel, i.stop.val ≤ last) :
    ((o.intervals channel).map (·.duration.toNat)).sum ≤ last - first := by
  have perm := o.agenda_perm channel
  rw [← (perm.map _).sum_nat]
  exact Pulse.sum_duration_le (fun i mem => ho.inRange_intervals channel i (perm.mem_iff.1 mem))
    (ho.pairwise_agenda channel) window (fun i mem => starts i (perm.mem_iff.1 mem))
    fun i mem => stops i (perm.mem_iff.1 mem)

end Sound

/-- A channel of a reachable occupancy is never taken twice.  Sorted by start and then by stop, the
intervals of its slots form a chain in which each stops, by its whole duration, before the next one
starts or as it starts.  No two slots on the channel cover an instant together, and none, of length
zero or not, lies strictly inside another.  The durations add up to no more than what lies between
the earliest start and the latest stop. -/
theorem never_double_booked {o : Occupancy γ} (ho : o.Reachable) (channel : γ) :
    ((o.agenda channel).Perm (on o.slots channel) ∧
      (o.agenda channel).Pairwise Interval.Precedes ∧
      (o.agenda channel).IsChain Interval.Until ∧
      ∀ i ∈ o.agenda channel, i.stop.val = i.start.val + i.duration.toNat) ∧
    (∀ i j (hi : i < o.slots.length) (hj : j < o.slots.length),
      o.slots[i].channel = channel → o.slots[j].channel = channel →
      (∀ t, o.slots[i].interval.Covers t → o.slots[j].interval.Covers t → i = j) ∧
      ¬ o.slots[i].interval.Inside o.slots[j].interval) ∧
    ∀ first last,
      ((o.intervals channel).map (·.start.val)).min? = some first →
      ((o.intervals channel).map (·.stop.val)).max? = some last →
      ((o.intervals channel).map (·.duration.toNat)).sum ≤ last - first := by
  have sound := ho.sound
  have perm := o.agenda_perm channel
  refine ⟨⟨sound.intervals_eq channel ▸ perm, List.pairwise_insertionSort _ _,
      (sound.pairwise_agenda channel).isChain, fun i mem => Interval.stop_val ?_⟩,
    fun i j hi hj onI onJ => ⟨fun t coversI coversJ => ?_, fun inside => ?_⟩,
    fun first last earliest latest => ?_⟩
  · exact sound.inRange_intervals channel i (perm.mem_iff.1 mem)
  · by_contra ne
    exact sound.apart_getElem hi hj ne ⟨onI.trans onJ.symm, coversI.overlaps coversJ⟩
  · have ne : i ≠ j := by
      rintro rfl
      exact Int.lt_irrefl _ inside.1
    have inRange := sound.inRange _ (List.getElem_mem hi)
    exact sound.apart_getElem hi hj ne ⟨onI.trans onJ.symm, inside.overlaps inRange⟩
  · obtain ⟨mem, lower⟩ := List.min?_eq_some_iff.1 earliest
    obtain ⟨-, upper⟩ := List.max?_eq_some_iff.1 latest
    rw [List.forall_mem_map] at lower upper
    obtain ⟨i, taken, rfl⟩ := List.mem_map.1 mem
    have forward := Interval.start_le_stop (sound.inRange_intervals channel i taken)
    exact sound.sum_duration_le channel (Int.le_trans forward (upper i taken)) lower upper

/-- Pulses on channel 0 with an instant where each starts and stops, out of order, and a gap. -/
def packed : List (Timeslot Nat) :=
  [⟨⟨.ofSamples 10, 10⟩, 0⟩, ⟨⟨.ofSamples 20, 0⟩, 0⟩, ⟨⟨.zero, 40⟩, 1⟩, ⟨⟨.ofSamples 30, 5⟩, 0⟩,
    ⟨⟨.ofSamples 10, 0⟩, 0⟩, ⟨⟨.zero, 10⟩, 0⟩, ⟨⟨.zero, 0⟩, 0⟩]

/-- Each instant comes before the pulse that starts with it, and 25 samples lie in a window of
35. -/
theorem never_double_booked_packed :
    ∃ o : Occupancy Nat, ofSlots packed = .ok o ∧ o.Reachable ∧
      o.agenda 0 = [⟨.zero, 0⟩, ⟨.zero, 10⟩, ⟨.ofSamples 10, 0⟩, ⟨.ofSamples 10, 10⟩,
        ⟨.ofSamples 20, 0⟩, ⟨.ofSamples 30, 5⟩] ∧
      (o.agenda 0).IsChain Interval.Until ∧
      ((o.intervals 0).map (·.duration.toNat)).sum ≤ (35 - 0 : Int) := by
  refine ⟨_, rfl, ?_⟩
  have reachable := @Reachable.ofSlots Nat _ packed _ rfl
  obtain ⟨⟨-, -, chain, -⟩, -, sum⟩ := never_double_booked reachable 0
  exact ⟨reachable, rfl, chain, sum 0 35 rfl rfl⟩

end Occupancy

end QuantumControl.Pulse
