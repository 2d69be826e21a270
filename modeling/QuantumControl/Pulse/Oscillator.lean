import QuantumControl.Pulse.Schedule
import QuantumControl.Table.Sorted

/-! # Local oscillators

Overrides of oscillator frequencies, one per drive or measure channel, in the order of the
channels. A configured schedule carries such overrides with it. -/

namespace QuantumControl.Pulse

structure LoConfig where
  /-- Ascending in the channel. -/
  overrides : List (Channel × Float)

namespace LoConfig

def empty : LoConfig := ⟨[]⟩

instance : Inhabited LoConfig := ⟨empty⟩

/-- Set an override: only for a channel with an oscillator, and only to a positive number. -/
def set (config : LoConfig) (channel : Channel) (frequency : Float) :
    Except PulseError LoConfig :=
  if !channel.hasOscillator then
    .error (.invalidChannel s!"{channel} has no local oscillator")
  else if !frequency.isFinite || frequency ≤ 0 then
    .error (.invalidParameter
      s!"LO frequency of {channel} must be positive, got {Decimal.plain frequency}")
  else .ok ⟨Sorted.insert channel frequency config.overrides⟩

/-- Set an override in place, with the configuration after the attempt. -/
def setInPlace (config : LoConfig) (channel : Channel) (frequency : Float) :
    Except PulseError Unit × LoConfig :=
  match config.set channel frequency with
  | .ok changed => (.ok (), changed)
  | .error fault => (.error fault, config)

/-- Set overrides one after the other. -/
def ofList (overrides : List (Channel × Float)) : Except PulseError LoConfig :=
  overrides.foldlM (fun config e => config.set e.1 e.2) empty

def get? (config : LoConfig) (channel : Channel) : Option Float :=
  (config.overrides.find? (·.1 = channel)).map Prod.snd

def isEmpty (config : LoConfig) : Bool := config.overrides.isEmpty

/-- Apply one override to a list of frequencies by index. -/
def override (frequencies : List Float) (e : Channel × Float) : Except PulseError (List Float) :=
  if e.1.index.toNat < frequencies.length then .ok (frequencies.set e.1.index.toNat e.2)
  else .error (.oscillatorOutOfRange e.1.name frequencies.length)

/-- Default frequencies with the overrides of one kind of channel applied. -/
def frequencies (config : LoConfig) (kind : ChannelKind) (defaults : List Float) :
    Except PulseError (List Float) :=
  (config.overrides.filter (·.1.kind = kind)).foldlM override defaults

def qubitFrequencies (config : LoConfig) (defaults : List Float) :
    Except PulseError (List Float) := config.frequencies .drive defaults

def measureFrequencies (config : LoConfig) (defaults : List Float) :
    Except PulseError (List Float) := config.frequencies .measure defaults

end LoConfig

/-- A schedule with its experiment configuration. -/
structure ConfiguredSchedule where
  schedule : Schedule
  lo : LoConfig := LoConfig.empty
  ownName : Option String := none

/-- The experiment's own name, or else the schedule's. -/
def ConfiguredSchedule.name (c : ConfiguredSchedule) : Option String :=
  match c.ownName with
  | some name => some name
  | none => c.schedule.name

end QuantumControl.Pulse
