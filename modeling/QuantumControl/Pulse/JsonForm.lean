import QuantumControl.Json.Decoder
import QuantumControl.Pulse.Oscillator

/-! # JSON forms of pulse data

Records are written as objects, alternatives by their names, complex numbers as pairs, channels and
lineages as text. Reading checks ranges, the names of channels and oscillator overrides; the
parameters of parametric pulses are taken as they are. -/

namespace QuantumControl.Pulse

open Json (Decoder)

namespace Time

def decode : Decoder Time := fun d => (Decoder.int64 d).map clamp

def toJson (t : Time) : Json := .int t.val

end Time

def wordToJson (n : UInt32) : Json := .int n.toNat

namespace Complex

def decode : Decoder Complex := fun d => do
  let (re, im) ← Decoder.pair Decoder.float Decoder.float d
  return ⟨re, im⟩

def toJson (z : Complex) : Json := .array [Json.ofFloat z.re, Json.ofFloat z.im]

end Complex

namespace Channel

def decode : Decoder Channel := fun d => do ofName? (← Decoder.string d)

def toJson (c : Channel) : Json := .string c.name

end Channel

namespace Interval

def decode : Decoder Interval := fun d => do
  match ← Decoder.fields ["begin", "duration"] d with
  | [start, duration] =>
      return ⟨← Decoder.required Time.decode start, ← Decoder.required Decoder.word32 duration⟩
  | _ => none

def toJson (i : Interval) : Json :=
  Json.ofMembers [("begin", i.start.toJson), ("duration", wordToJson i.duration)]

end Interval

namespace Timeslot

variable {γ : Type}

def decode (channel : Decoder γ) : Decoder (Timeslot γ) := fun d => do
  match ← Decoder.fields ["interval", "channel"] d with
  | [interval, c] =>
      return ⟨← Decoder.required Interval.decode interval, ← Decoder.required channel c⟩
  | _ => none

def toJson (channel : γ → Json) (s : Timeslot γ) : Json :=
  Json.ofMembers [("interval", s.interval.toJson), ("channel", channel s.channel)]

end Timeslot

namespace SamplePulse

def decode : Decoder SamplePulse := fun d => do
  match ← Decoder.fields ["name", "samples"] d with
  | [name, samples] =>
      return ⟨← Decoder.required Decoder.string name,
        ← Decoder.required (Decoder.list Complex.decode) samples⟩
  | _ => none

def toJson (p : SamplePulse) : Json :=
  Json.ofMembers [("name", .string p.name), ("samples", .array (p.samples.map Complex.toJson))]

end SamplePulse

namespace Acquisition

def decode : Decoder Acquisition := fun d => do
  match ← Decoder.fields ["duration", "discriminator", "kernel"] d with
  | [duration, discriminator, kernel] =>
      return ⟨← Decoder.required Decoder.word32 duration,
        ← Decoder.absent Decoder.string discriminator, ← Decoder.absent Decoder.string kernel⟩
  | _ => none

def toJson (a : Acquisition) : Json :=
  Json.ofMembers [("duration", wordToJson a.duration),
    ("discriminator", Json.ofOption .string a.discriminator),
    ("kernel", Json.ofOption .string a.kernel)]

end Acquisition

namespace PulseShape

/-- A record of doubles. -/
def doubles (names : List String) : Decoder (List Float) := fun d => do
  (← Decoder.fields names d).mapM (Decoder.required Decoder.float)

def decode : Decoder PulseShape := fun d => do
  match ← Decoder.alternative d with
  | ("Gaussian", some body) =>
      match ← doubles ["sigma"] body with
      | [sigma] => some (.gaussian sigma)
      | _ => none
  | ("GaussianSquare", some body) =>
      match ← doubles ["sigma", "width"] body with
      | [sigma, width] => some (.gaussianSquare sigma width)
      | _ => none
  | ("Drag", some body) =>
      match ← doubles ["sigma", "beta"] body with
      | [sigma, beta] => some (.drag sigma beta)
      | _ => none
  | ("Constant", body) => do
      Decoder.noBody body
      return .constant
  | _ => none

def toJson (s : PulseShape) : Json :=
  match s with
  | .constant => .string s.name
  | _ => Json.ofMembers
      [(s.name, Json.ofMembers (s.parameters.map fun e => (e.1, Json.ofFloat e.2)))]

end PulseShape

namespace ParametricPulse

def decode : Decoder ParametricPulse := fun d => do
  match ← Decoder.fields ["shape", "duration", "amp", "name", "limit_amplitude"] d with
  | [shape, duration, amplitude, name, limited] =>
      return ⟨← Decoder.required PulseShape.decode shape,
        ← Decoder.required Decoder.word32 duration, ← Decoder.required Complex.decode amplitude,
        ← Decoder.absent Decoder.string name, ← Decoder.required Decoder.bool limited⟩
  | _ => none

def toJson (p : ParametricPulse) : Json :=
  Json.ofMembers [("shape", p.shape.toJson), ("duration", wordToJson p.duration),
    ("amp", p.amplitude.toJson), ("name", Json.ofOption .string p.name),
    ("limit_amplitude", .bool p.limited)]

end ParametricPulse

namespace Command

def decode : Decoder Command := fun d => do
  match ← Decoder.alternative d with
  | ("Sample", some body) => (SamplePulse.decode body).map .sample
  | ("Parametric", some body) => (ParametricPulse.decode body).map .parametric
  | ("FrameChange", some body) =>
      match ← Decoder.fields ["phase"] body with
      | [phase] => (Decoder.required Decoder.float phase).map .frameChange
      | _ => none
  | ("PersistentValue", some body) =>
      match ← Decoder.fields ["value"] body with
      | [value] => (Decoder.required Complex.decode value).map .persistentValue
      | _ => none
  | ("Acquire", some body) => (Acquisition.decode body).map .acquire
  | ("Snapshot", some body) =>
      match ← Decoder.fields ["label", "snap_type"] body with
      | [label, kind] =>
          return .snapshot (← Decoder.required Decoder.string label)
            (← Decoder.required Decoder.string kind)
      | _ => none
  | _ => none

def toJson : Command → Json
  | sample pulse => Json.ofMembers [("Sample", pulse.toJson)]
  | parametric pulse => Json.ofMembers [("Parametric", pulse.toJson)]
  | frameChange phase =>
      Json.ofMembers [("FrameChange", Json.ofMembers [("phase", Json.ofFloat phase)])]
  | persistentValue value =>
      Json.ofMembers [("PersistentValue", Json.ofMembers [("value", value.toJson)])]
  | acquire acquisition => Json.ofMembers [("Acquire", acquisition.toJson)]
  | snapshot label kind =>
      Json.ofMembers
        [("Snapshot", Json.ofMembers [("label", .string label), ("snap_type", .string kind)])]

end Command

namespace LoConfig

/-- Overrides by channel name. Names of one channel count as one, the last stays, and then every
override must be one that can be set. -/
def decode : Decoder LoConfig := fun d => do
  let named ← Decoder.members Decoder.float d
  let overrides ← named.mapM fun e => (Channel.ofName? e.1).map fun c => (c, e.2)
  (ofList (Sorted.ofList overrides)).toOption

def toJson (config : LoConfig) : Json :=
  Json.ofMembers (config.overrides.map fun e => (e.1.name, Json.ofFloat e.2))

end LoConfig

namespace ScheduleId

def decode : Decoder ScheduleId := fun d => do
  return ⟨← Uuid.read? (← Decoder.string d)⟩

def toJson (id : ScheduleId) : Json := .string id.uuid.text

end ScheduleId

end QuantumControl.Pulse
