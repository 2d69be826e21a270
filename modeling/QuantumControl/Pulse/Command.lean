import QuantumControl.Pulse.Channel
import QuantumControl.Pulse.Parametric
import QuantumControl.Uuid

/-! # Commands

What an instruction does on its channels. Waveforms and acquisitions take time; frame changes,
held values and snapshots are instantaneous. -/

namespace QuantumControl.Pulse

/-- A waveform given sample by sample. -/
structure SamplePulse where
  name : String
  samples : List Complex
deriving BEq

namespace SamplePulse

/-- A named waveform whose number of samples fits a word. -/
def named (name : String) (samples : List Complex) : Except PulseError SamplePulse :=
  if samples.length < UInt32.size then .ok ⟨name, samples⟩
  else .error (.invalidParameter
    s!"sample pulse with {samples.length} samples exceeds the maximum duration")

/-- A waveform named after an identifier. -/
def anonymous (id : Uuid) (samples : List Complex) : Except PulseError SamplePulse :=
  named ("pulse_object_" ++ id.simple) samples

/-- The number of samples. -/
def duration (p : SamplePulse) : UInt32 :=
  if p.samples.length < UInt32.size then p.samples.length.toUInt32 else 4294967295

end SamplePulse

/-- The acquisition of measurement data. -/
structure Acquisition where
  duration : UInt32
  discriminator : Option String := none
  kernel : Option String := none
deriving DecidableEq

inductive Command where
  | sample (pulse : SamplePulse)
  | parametric (pulse : ParametricPulse)
  | frameChange (phase : Float)
  | persistentValue (value : Complex)
  | acquire (acquisition : Acquisition)
  | snapshot (label kind : String)
deriving BEq

namespace Command

/-- The number of samples for which the command occupies its channels. -/
def duration : Command → UInt32
  | sample pulse => pulse.duration
  | parametric pulse => pulse.duration
  | acquire acquisition => acquisition.duration
  | frameChange _ | persistentValue _ | snapshot _ _ => 0

def name : Command → String
  | sample pulse => pulse.name
  | parametric pulse => pulse.name.getD pulse.shape.name
  | frameChange _ => "fc"
  | persistentValue _ => "pv"
  | acquire _ => "acquire"
  | snapshot label _ => label

def text : Command → String
  | sample pulse => s!"SamplePulse({pulse.name}, duration={pulse.duration})"
  | parametric pulse => pulse.text
  | frameChange phase => "FrameChange(phase=" ++ Decimal.fixed 3 phase ++ ")"
  | persistentValue value => s!"PersistentValue(value={value})"
  | acquire acquisition => s!"Acquire(duration={acquisition.duration})"
  | snapshot label kind => s!"Snapshot({label}, type={kind})"

instance : ToString Command := ⟨text⟩

end Command

/-- Read a channel's name, or report the text that is none. -/
def Channel.parse (s : String) : Except PulseError Channel :=
  match Channel.ofName? s with
  | some c => .ok c
  | none => .error (.invalidChannel s)

/-- Output channels take every command that drives them, the other channels only acquisitions. -/
def Channel.supports (c : Channel) (command : Command) : Bool :=
  match command with
  | .sample _ | .parametric _ | .frameChange _ | .persistentValue _ => c.isOutput
  | .acquire _ => !c.isOutput
  | .snapshot _ _ => false

end QuantumControl.Pulse
