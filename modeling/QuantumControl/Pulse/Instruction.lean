import QuantumControl.Pulse.Command
import QuantumControl.Pulse.Occupancy
import QuantumControl.Text.Column

/-! # Instructions

An instruction is a command on the channels that it occupies, each of them once, from its start
for the command's duration. -/

namespace QuantumControl.Pulse

structure Instruction where
  command : Command
  channels : List Channel
  start : Time
  /-- The slots relative to the instruction's own start. -/
  occupancy : Occupancy Channel

namespace Instruction

/-- Bind a command to channels that support it, starting at zero. -/
def new (command : Command) (channels : List Channel) : Except PulseError Instruction :=
  match channels.find? fun c => !c.supports command with
  | some channel => .error (.unsupportedCommand command.text channel.name)
  | none => do
      let window : Interval := ⟨Time.zero, command.duration⟩
      let occupancy ← Occupancy.ofSlots (channels.map fun c => ⟨window, c⟩)
      return ⟨command, channels, Time.zero, occupancy⟩

def play (command : Command) (channel : Channel) : Except PulseError Instruction :=
  new command [channel]

def frameChange (phase : Float) (channel : Channel) : Except PulseError Instruction :=
  new (.frameChange phase) [channel]

def persistentValue (value : Complex) (channel : Channel) : Except PulseError Instruction :=
  new (.persistentValue value) [channel]

/-- Acquire qubits into memory slots and, if any are given, one register slot per qubit. -/
def acquire (acquisition : Acquisition) (qubits memorySlots registerSlots : List UInt32) :
    Except PulseError Instruction :=
  if registerSlots ≠ [] ∧ registerSlots.length ≠ qubits.length then
    .error (.registerSlotMismatch qubits.length registerSlots.length)
  else
    new (.acquire acquisition)
      (qubits.map .acquire ++ memorySlots.map .memorySlot ++ registerSlots.map .registerSlot)

def snapshot (label kind : String) : Except PulseError Instruction := new (.snapshot label kind) []

def duration (i : Instruction) : UInt32 := i.command.duration

/-- The instant at which the command ends. -/
def stop (i : Instruction) : Time := i.start.later i.duration

/-- The instruction moved by a time of either sign, if it stays within the range. -/
def shifted (i : Instruction) (time : Time) : Except PulseError Instruction :=
  match i.start.add? time with
  | none => .error (.timeOverflow time)
  | some start =>
      if start.reaches i.duration then .ok { i with start } else .error (.timeOverflow time)

/-- The instruction moved as far as the range of times allows. -/
def shiftedClamped (i : Instruction) (time : Time) : Instruction :=
  { i with start := i.start.addClamped time }

def text (i : Instruction) : String :=
  let body := Text.alignRight 4 (toString i.start) ++ ": " ++ i.command.text
  if i.channels.isEmpty then body
  else body ++ " -> " ++ ", ".intercalate (i.channels.map Channel.name)

instance : ToString Instruction := ⟨text⟩

end Instruction

end QuantumControl.Pulse
