import QuantumControl.Pulse.Time

/-! # Intervals and timeslots

An interval is a half-open window `[start, stop)`. Two intervals overlap if each starts before the
other stops; so an interval of length zero overlaps those that it lies strictly inside of, and no
other. A timeslot is an interval on a channel. -/

namespace QuantumControl.Pulse

structure Interval where
  start : Time
  duration : UInt32
deriving DecidableEq

namespace Interval

/-- The first instant after the interval, or the last instant if that is out of range. -/
def stop (i : Interval) : Time := i.start.later i.duration

/-- Whether the interval ends within the range of times. -/
def inRange (i : Interval) : Bool := i.start.reaches i.duration

def Overlaps (i j : Interval) : Prop := i.start < j.stop ∧ j.start < i.stop

instance (i j : Interval) : Decidable (i.Overlaps j) := inferInstanceAs (Decidable (_ ∧ _))

theorem Overlaps.symm {i j : Interval} (h : i.Overlaps j) : j.Overlaps i := ⟨h.2, h.1⟩

/-- The interval moved by a time of either sign, if it stays within the range. -/
def shifted? (i : Interval) (time : Time) : Option Interval := do
  let start ← i.start.add? time
  if start.reaches i.duration then some ⟨start, i.duration⟩ else none

theorem shifted?_eq_some_iff {i j : Interval} {time : Time} :
    i.shifted? time = some j ↔
      j.start.val = i.start.val + time.val ∧ j.duration = i.duration ∧ j.inRange := by
  obtain ⟨start, duration⟩ := j
  simp only [shifted?, Option.bind_eq_bind, Option.bind_eq_some_iff, Time.add?_eq_some_iff, inRange]
  constructor
  · rintro ⟨u, hu, h⟩
    split at h
    · next reaches => cases h; exact ⟨hu, rfl, reaches⟩
    · cases h
  · rintro ⟨hu, rfl, reaches⟩
    exact ⟨start, hu, if_pos reaches⟩

instance : ToString Interval := ⟨fun i => s!"[{i.start}, {i.stop})"⟩

end Interval

/-- An interval on a channel. -/
structure Timeslot (γ : Type) where
  interval : Interval
  channel : γ
deriving DecidableEq

namespace Timeslot

variable {γ : Type}

def shifted? (s : Timeslot γ) (time : Time) : Option (Timeslot γ) :=
  (s.interval.shifted? time).map fun i => ⟨i, s.channel⟩

instance [ToString γ] : ToString (Timeslot γ) := ⟨fun s => s!"{s.interval}@{s.channel}"⟩

end Timeslot

end QuantumControl.Pulse
