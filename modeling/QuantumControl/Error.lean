import QuantumControl.Circuit.Gate
import QuantumControl.Pipeline.Error
import QuantumControl.Pulse.Error

/-! # Faults of the tools

A fault of one of the parts keeps its message. -/

namespace QuantumControl

inductive ToolError where
  | pipeline (error : Pipeline.PassError)
  | schedule (error : Pulse.PulseError)
  | statement (fault : Circuit.StatementFault)
deriving DecidableEq

instance : Coe Pipeline.PassError ToolError := ⟨.pipeline⟩

instance : Coe Pulse.PulseError ToolError := ⟨.schedule⟩

instance : Coe Circuit.StatementFault ToolError := ⟨.statement⟩

/-- The name of the fault. -/
def ToolError.kind : ToolError → String
  | pipeline error => error.kind
  | schedule error => error.kind
  | statement _ => "Parse"

def ToolError.message : ToolError → String
  | pipeline error => error.message
  | schedule error => error.message
  | statement fault => fault.message

end QuantumControl
