import QuantumControl.Pulse.Instruction

/-! # Schedules

A schedule places instructions in time. Its children keep their starts relative to the schedule's
own start, and so does the occupancy that they add up to, which admits a further instruction only
if none of its slots overlaps a committed one. Schedules derived from one another share an
identifier, their lineage. -/

namespace QuantumControl.Pulse

/-- The lineage of a schedule. -/
structure ScheduleId where
  uuid : Uuid
deriving DecidableEq, Repr

instance : ToString ScheduleId := ⟨fun id => id.uuid.text⟩

structure Schedule where
  id : ScheduleId
  name : Option String
  start : Time
  occupancy : Occupancy Channel
  children : List Instruction

/-- What can be placed into a schedule. -/
inductive Component where
  | instruction (instruction : Instruction)
  | schedule (schedule : Schedule)

namespace Schedule

/-- The empty schedule that starts a lineage. -/
def new (id : ScheduleId) (name : Option String := none) : Schedule :=
  ⟨id, name, Time.zero, Occupancy.empty, []⟩

def isEmpty (s : Schedule) : Bool := s.children.isEmpty

/-- The latest stop of a committed slot, relative to the schedule's start; also its duration. -/
def localStop (s : Schedule) : Time := s.occupancy.stop?.getD Time.zero

def stop (s : Schedule) : Time := s.start.addClamped s.localStop

/-- The latest stop of a child, on channels or not, relative to the schedule's start. -/
def extent (s : Schedule) : Time := (Time.latest? (s.children.map Instruction.stop)).getD Time.zero

/-- Move the start, if every child stays within the range of times. -/
def withStart (s : Schedule) (start : Time) : Except PulseError Schedule :=
  match start.add? s.extent with
  | none => .error (.timeOverflow start)
  | some _ => .ok { s with start }

/-- The schedule moved to a later time. -/
def shifted (s : Schedule) (time : Time) : Except PulseError Schedule :=
  if time < Time.zero then .error (.negativeShift time)
  else match s.start.add? time with
  | none => .error (.timeOverflow time)
  | some start =>
      match start.add? s.extent with
      | none => .error (.timeOverflow time)
      | some _ => .ok { s with start }

/-- Place an instruction at a time. -/
def place (s : Schedule) (time : Time) (instruction : Instruction) : Except PulseError Schedule :=
  match instruction.start.add? time with
  | none => .error (.timeOverflow time)
  | some offset => do
      let placed ← instruction.occupancy.shifted offset
      if !s.occupancy.mergeableWith placed then
        throw (.insertConflict instruction.text time)
      let child ← instruction.shifted time
      match s.start.add? child.stop with
      | none => throw (.timeOverflow time)
      | some _ =>
          return { s with
            occupancy := s.occupancy.mergedUnchecked placed
            children := s.children ++ [child] }

/-- A schedule is placed only if it is empty and of another lineage, and then changes nothing. -/
def insert (s : Schedule) (time : Time) : Component → Except PulseError Schedule
  | .instruction instruction => s.place time instruction
  | .schedule other =>
      if other.id = s.id then .error .selfInsertion
      else if !other.isEmpty then .error .nestedSchedule
      else .ok s

end Schedule

namespace Component

def text : Component → String
  | instruction i => i.text
  | schedule s => "Schedule(" ++ s.name.getD "unnamed" ++ ")"

def duration : Component → Time
  | instruction i => Time.ofSamples i.duration
  | schedule s => s.localStop

def occupancy : Component → Occupancy Channel
  | instruction i => i.occupancy
  | schedule s => s.occupancy

end Component

namespace Schedule

/-- Place a component right after the last committed slot. -/
def append (s : Schedule) (component : Component) : Except PulseError Schedule :=
  match s.insert s.localStop component with
  | .error (.insertConflict _ _) => .error (.appendConflict component.text)
  | result => result

/-- The contents of a component placed at zero. -/
def union (s : Schedule) (component : Component) : Except PulseError Schedule :=
  s.insert Time.zero component

/-- Replace a schedule by the result of a step, or keep it if the step fails. -/
def commit (s : Schedule) : Except PulseError Schedule → Except PulseError Unit × Schedule
  | .ok t => (.ok (), t)
  | .error fault => (.error fault, s)

/-- Place a component, with the schedule after the attempt. -/
def insertInPlace (s : Schedule) (time : Time) (component : Component) :
    Except PulseError Unit × Schedule := s.commit (s.insert time component)

/-- Append a component, with the schedule after the attempt. -/
def appendInPlace (s : Schedule) (component : Component) : Except PulseError Unit × Schedule :=
  s.commit (s.append component)

/-- The children with absolute starts. -/
def flat (s : Schedule) : List Instruction := s.children.map (·.shiftedClamped s.start)

def text (s : Schedule) : String := "\n".intercalate (s.children.map Instruction.text)

instance : ToString Schedule := ⟨text⟩

end Schedule

end QuantumControl.Pulse
