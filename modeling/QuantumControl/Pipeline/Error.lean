/-! # Faults of a pipeline -/

namespace QuantumControl.Pipeline

/-- Why a pipeline cannot be built, or why a run stops. -/
inductive PassError where
  | missingPredicate (name : String)
  | unknownController (name : String)
  | controllerNotFound (name : String)
  | maxIterationReached (ceiling : Nat)
  | passFailed (name reason : String)
  | invalidConfiguration (text : String)
  /-- A property that does not have the wanted type. -/
  | property (key : String)
deriving DecidableEq, Repr

namespace PassError

/-- The name of the fault. -/
def kind : PassError → String
  | missingPredicate _ => "MissingPredicate"
  | unknownController _ => "UnknownController"
  | controllerNotFound _ => "ControllerNotFound"
  | maxIterationReached _ => "MaxIterationReached"
  | passFailed _ _ => "PassFailed"
  | invalidConfiguration _ => "InvalidConfiguration"
  | property _ => "Property"

def message : PassError → String
  | missingPredicate name =>
      s!"The controller needs a callable. Value cannot be None. (alias: {name})"
  | unknownController name => s!"No flow controller registered for alias '{name}'"
  | controllerNotFound name => s!"Flow controller not found: {name}"
  | maxIterationReached ceiling => s!"Maximum iteration reached. max_iteration={ceiling}"
  | passFailed name reason => s!"Pass '{name}' failed: {reason}"
  | invalidConfiguration text => s!"Invalid pass configuration: {text}"
  | property key => s!"Property '{key}' is invalid"

end PassError

end QuantumControl.Pipeline
