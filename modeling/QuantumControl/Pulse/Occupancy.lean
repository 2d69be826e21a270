import QuantumControl.Pulse.Error
import QuantumControl.Table

/-! # Occupancy

An occupancy is a list of timeslots in which no two on one channel overlap. It keeps, beside the
list, the intervals of each channel, which admission of further slots is checked against. -/

namespace QuantumControl.Pulse

/-- Timeslots in order of arrival and, per channel, their intervals in the same order. -/
structure Occupancy (γ : Type) where
  slots : List (Timeslot γ)
  table : Table γ (List Interval)

namespace Occupancy

variable {γ : Type}

def empty : Occupancy γ := ⟨[], Table.empty⟩

instance : Inhabited (Occupancy γ) := ⟨empty⟩

def size (o : Occupancy γ) : Nat := o.slots.length

def isEmpty (o : Occupancy γ) : Bool := o.slots.isEmpty

/-- The latest instant at which a slot stops. -/
def stop? (o : Occupancy γ) : Option Time := Time.latest? (o.slots.map (·.interval.stop))

section Admission

variable [DecidableEq γ]

/-- The intervals taken on a channel, in order of arrival. -/
def intervals (o : Occupancy γ) (channel : γ) : List Interval := (o.table.get? channel).getD []

/-- Enter a slot's interval into a table, without a check. -/
def enter (table : Table γ (List Interval)) (slot : Timeslot γ) : Table γ (List Interval) :=
  table.alter slot.channel fun taken => taken.getD [] ++ [slot.interval]

/-- Enter a slot's interval that lies in range and overlaps none on its channel. -/
def accept (table : Table γ (List Interval)) (slot : Timeslot γ) :
    Except PulseError (Table γ (List Interval)) :=
  if !slot.interval.inRange then .error (.timeOverflow slot.interval.start)
  else match ((table.get? slot.channel).getD []).find? (·.Overlaps slot.interval) with
  | some taken => .error (.overlappingTimeslots taken slot.interval)
  | none => .ok (enter table slot)

/-- The occupancy of a list of slots; the first slot that is refused decides the fault. -/
def ofSlots (slots : List (Timeslot γ)) : Except PulseError (Occupancy γ) :=
  (slots.foldlM accept Table.empty).map fun table => ⟨slots, table⟩

/-- Whether no slot of `b` overlaps one of `a` on the same channel. -/
def mergeableWith (a b : Occupancy γ) : Bool :=
  b.slots.all fun slot => (a.intervals slot.channel).all fun taken => !taken.Overlaps slot.interval

/-- The slots of both, checked again from the start. -/
def merged (a b : Occupancy γ) : Except PulseError (Occupancy γ) := ofSlots (a.slots ++ b.slots)

/-- The slots of both, for occupancies that are known to be mergeable. -/
def mergedUnchecked (a b : Occupancy γ) : Occupancy γ where
  slots := a.slots ++ b.slots
  table := b.slots.foldl enter a.table

end Admission

/-- Apply a partial function to every value of a table. -/
def shiftTable (time : Time) : List (γ × List Interval) → Option (List (γ × List Interval))
  | [] => some []
  | (channel, taken) :: rest => do
      return (channel, ← taken.mapM (·.shifted? time)) :: (← shiftTable time rest)

theorem map_fst_shiftTable {time : Time} {es fs : List (γ × List Interval)}
    (h : shiftTable time es = some fs) : fs.map Prod.fst = es.map Prod.fst := by
  induction es generalizing fs with
  | nil => cases h; rfl
  | cons e es ih =>
      obtain ⟨channel, taken⟩ := e
      simp only [shiftTable, Option.pure_def, Option.bind_eq_bind, Option.bind_eq_some_iff,
        Option.some.injEq] at h
      obtain ⟨moved, -, rest, hr, rfl⟩ := h
      simp [ih hr]

/-- Every slot moved to a later time. -/
def shifted (o : Occupancy γ) (time : Time) : Except PulseError (Occupancy γ) :=
  if time < Time.zero then .error (.negativeShift time)
  else if time = Time.zero then .ok o
  else match o.slots.mapM (·.shifted? time) with
  | none => .error (.timeOverflow time)
  | some slots =>
      match h : shiftTable time o.table.entries with
      | none => .error (.timeOverflow time)
      | some entries => .ok ⟨slots, entries, by rw [map_fst_shiftTable h]; exact o.table.distinct⟩

end Occupancy

end QuantumControl.Pulse
