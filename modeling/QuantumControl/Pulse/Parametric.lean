import QuantumControl.Pulse.Complex
import QuantumControl.Pulse.Error

/-! # Parametric pulses

A parametric pulse is an analytic envelope of a known shape. Building one checks its parameters in
a fixed order: all are finite, the shape's own constraints hold, and the amplitude stays within the
unit disc unless that limit is lifted. -/

namespace QuantumControl.Pulse

/-- An envelope together with its shape parameters. -/
inductive PulseShape where
  | gaussian (sigma : Float)
  | gaussianSquare (sigma width : Float)
  | drag (sigma beta : Float)
  | constant
deriving BEq

namespace PulseShape

def name : PulseShape → String
  | gaussian _ => "Gaussian"
  | gaussianSquare _ _ => "GaussianSquare"
  | drag _ _ => "Drag"
  | constant => "Constant"

/-- The shape parameters by name, in order. -/
def parameters : PulseShape → List (String × Float)
  | gaussian sigma => [("sigma", sigma)]
  | gaussianSquare sigma width => [("sigma", sigma), ("width", width)]
  | drag sigma beta => [("sigma", sigma), ("beta", beta)]
  | constant => []

/-- The first constraint that the parameters violate for a pulse of the given duration. -/
def violation? (duration : UInt32) : PulseShape → Option String
  | gaussian sigma | drag sigma _ => if sigma ≤ 0 then some "sigma > 0" else none
  | gaussianSquare sigma width =>
      if sigma ≤ 0 then some "sigma > 0"
      else if width < 0 then some "width >= 0"
      else if duration.toFloat < width then some "duration >= width"
      else none
  | constant => none

end PulseShape

/-- The flat top of a Gaussian-square pulse: its length, or the length of each flank in units of
sigma. -/
inductive FlatTop where
  | width (width : Float)
  | riseFallSigmaRatio (ratio : Float)

namespace FlatTop

/-- The length of the flat top within a pulse of the given duration. -/
def widthWithin (duration : UInt32) (sigma : Float) : FlatTop → Float
  | width w => w
  | riseFallSigmaRatio ratio => duration.toFloat - 2 * ratio * sigma

end FlatTop

/-- A parameter's value. -/
inductive ParameterValue where
  | duration (samples : UInt32)
  | amplitude (z : Complex)
  | real (x : Float)

namespace ParameterValue

def kind : ParameterValue → String
  | duration _ => "duration"
  | amplitude _ => "amplitude"
  | real _ => "real"

def text : ParameterValue → String
  | duration samples => toString samples.toNat
  | amplitude z => z.text
  | real x => Decimal.plain x

end ParameterValue

structure ParametricPulse where
  shape : PulseShape
  duration : UInt32
  amplitude : Complex
  name : Option String
  limited : Bool
deriving BEq

namespace ParametricPulse

/-- All parameters by name: duration, amplitude, then those of the shape. -/
def parameters (p : ParametricPulse) : List (String × ParameterValue) :=
  ("duration", .duration p.duration) :: ("amp", .amplitude p.amplitude) ::
    p.shape.parameters.map fun e => (e.1, .real e.2)

def parametersText (p : ParametricPulse) : String :=
  ", ".intercalate (p.parameters.map fun e => e.1 ++ "=" ++ e.2.text)

/-- Look a parameter up by name. -/
def parameter (p : ParametricPulse) (name : String) : Except PulseError ParameterValue :=
  match p.parameters.find? (·.1 = name) with
  | some e => .ok e.2
  | none => .error (.unknownParameter p.shape.name name)

def allFinite (p : ParametricPulse) : Bool :=
  p.amplitude.isFinite && p.shape.parameters.all fun e => e.2.isFinite

/-- The first check that fails, if one does. -/
def fault? (p : ParametricPulse) : Option PulseError :=
  if !p.allFinite then
    some (.invalidParameter
      s!"parameters of {p.shape.name} must be finite: {p.parametersText}")
  else match p.shape.violation? p.duration with
  | some constraint =>
      some (.invalidParameter
        s!"Assigned parameters {p.parametersText} violate following constraint: {constraint}")
  | none =>
      if p.limited && p.amplitude.exceedsUnit then some (.amplitudeLimit p.parametersText)
      else none

/-- Build an unnamed pulse whose checks all pass. -/
def build (shape : PulseShape) (duration : UInt32) (amplitude : Complex) (limited : Bool) :
    Except PulseError ParametricPulse :=
  let pulse : ParametricPulse := ⟨shape, duration, amplitude, none, limited⟩
  match pulse.fault? with
  | some fault => .error fault
  | none => .ok pulse

/-- A pulse with an amplitude of modulus at most one. -/
def new (shape : PulseShape) (duration : UInt32) (amplitude : Complex) :
    Except PulseError ParametricPulse := build shape duration amplitude true

def withoutAmplitudeLimit (shape : PulseShape) (duration : UInt32) (amplitude : Complex) :
    Except PulseError ParametricPulse := build shape duration amplitude false

def gaussian (duration : UInt32) (amplitude : Complex) (sigma : Float) :
    Except PulseError ParametricPulse := new (.gaussian sigma) duration amplitude

def gaussianSquare (duration : UInt32) (amplitude : Complex) (sigma : Float) (top : FlatTop) :
    Except PulseError ParametricPulse :=
  new (.gaussianSquare sigma (top.widthWithin duration sigma)) duration amplitude

def drag (duration : UInt32) (amplitude : Complex) (sigma beta : Float) :
    Except PulseError ParametricPulse := new (.drag sigma beta) duration amplitude

def constant (duration : UInt32) (amplitude : Complex) : Except PulseError ParametricPulse :=
  new .constant duration amplitude

def withName (p : ParametricPulse) (name : String) : ParametricPulse := { p with name := some name }

/-- The flank length of a Gaussian-square pulse in units of sigma. -/
def riseFallSigmaRatio? (p : ParametricPulse) : Option Float :=
  match p.shape with
  | .gaussianSquare sigma width => some ((p.duration.toFloat - width) / (2 * sigma))
  | _ => none

def text (p : ParametricPulse) : String :=
  let name := match p.name with
    | some n => ", name='" ++ n ++ "'"
    | none => ""
  s!"{p.shape.name}({p.parametersText}{name})"

instance : ToString ParametricPulse := ⟨text⟩

end ParametricPulse

end QuantumControl.Pulse
