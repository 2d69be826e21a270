import QuantumControl.Json.Decoder
import QuantumControl.Json.Printer
import QuantumControl.Pipeline.Error

/-! # Controller options -/

namespace QuantumControl.Pipeline

/-- What the controllers of a pipeline are configured with. -/
structure ControllerOptions where
  /-- The most passes that a loop may make. The number stands for a machine word: reading options
  refuses one of `UInt64.size` or more, and what is said of loops that count with words assumes that
  it is below. -/
  maxIteration : Nat := 1000
deriving DecidableEq, Repr, Inhabited

namespace ControllerOptions

/-- Read options; a missing ceiling is the default one. -/
def decode : Json.Decoder ControllerOptions
  | .object ms =>
      if ms.all (·.1.isSome) then do
        match ← Json.Decoder.field? ms "max_iteration" with
        | none => some {}
        | some d => (Json.Decoder.below UInt64.size d).map fun n => { maxIteration := n }
      else none
  | .array [] => some {}
  | .array [d] => (Json.Decoder.below UInt64.size d).map fun n => { maxIteration := n }
  | _ => none

def toJson (o : ControllerOptions) : Json := Json.ofMembers [("max_iteration", .int o.maxIteration)]

/-- Read options from JSON text. -/
def parse (text : String) : Except PassError ControllerOptions :=
  match Json.Document.read? text >>= decode with
  | some options => .ok options
  | none => .error (.invalidConfiguration "malformed controller options")

/-- The options as a structured listing shows them. -/
def listing (o : ControllerOptions) : String :=
  s!"ControllerOptions \x7b max_iteration: {o.maxIteration} \x7d"

end ControllerOptions

end QuantumControl.Pipeline
