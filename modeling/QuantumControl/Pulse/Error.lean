import QuantumControl.Pulse.Interval

/-! # Faults of pulse scheduling -/

namespace QuantumControl.Pulse

/-- Why a pulse, an instruction or a placement is refused. -/
inductive PulseError where
  | overlappingTimeslots (first second : Interval)
  | negativeShift (time : Time)
  | timeOverflow (time : Time)
  | insertConflict (component : String) (time : Time)
  | appendConflict (component : String)
  | selfInsertion
  | nestedSchedule
  | unsupportedCommand (command channel : String)
  | registerSlotMismatch (qubits registerSlots : Nat)
  | invalidChannel (text : String)
  | unknownParameter (shape name : String)
  | invalidParameter (text : String)
  | amplitudeLimit (parameters : String)
  | oscillatorOutOfRange (channel : String) (defaults : Nat)
deriving DecidableEq

namespace PulseError

/-- The name of the fault. -/
def kind : PulseError → String
  | overlappingTimeslots _ _ => "OverlappingTimeslots"
  | negativeShift _ => "NegativeShift"
  | timeOverflow _ => "TimeOverflow"
  | insertConflict _ _ => "InsertConflict"
  | appendConflict _ => "AppendConflict"
  | selfInsertion => "SelfInsertion"
  | nestedSchedule => "NestedSchedule"
  | unsupportedCommand _ _ => "UnsupportedCommand"
  | registerSlotMismatch _ _ => "RegisterSlotMismatch"
  | invalidChannel _ => "InvalidChannel"
  | unknownParameter _ _ => "UnknownParameter"
  | invalidParameter _ => "InvalidParameter"
  | amplitudeLimit _ => "AmplitudeLimit"
  | oscillatorOutOfRange _ _ => "LoIndexOutOfRange"

def message : PulseError → String
  | overlappingTimeslots first second =>
      s!"Cannot create occupancy from overlapping timeslots: {first} and {second}"
  | negativeShift time => s!"Cannot shift occupancy by negative time: {time}"
  | timeOverflow time => s!"Time {time} is out of the representable range"
  | insertConflict component time => s!"Fail to insert {component} at {time} due to overlap"
  | appendConflict component => s!"Fail to append {component} due to overlap"
  | selfInsertion => "Cannot insert self to avoid infinite recursion"
  | nestedSchedule => "This version doesn't support schedule of schedules"
  | unsupportedCommand command channel => s!"{command} is not supported on {channel}"
  | registerSlotMismatch qubits registerSlots =>
      s!"#reg_slots must be equal to #qubits ({registerSlots} != {qubits})"
  | invalidChannel text => s!"Invalid channel: {text}"
  | unknownParameter shape name => s!"'{name}' is not a parameter of {shape}"
  | invalidParameter text => s!"Invalid pulse parameter: {text}"
  | amplitudeLimit parameters =>
      s!"Maximum pulse amplitude norm exceeds 1.0 with assigned parameters {parameters}. " ++
        "This can be overruled by disabling the amplitude limit."
  | oscillatorOutOfRange channel defaults =>
      s!"LO override for {channel} is out of range for {defaults} default frequencies"

end PulseError

end QuantumControl.Pulse
