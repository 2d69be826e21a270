import QuantumControl.Circuit.Pass
import QuantumControl.Pipeline.Manager

/-! # The transpiler

The pipeline checks and counts a gate list and, at every level above zero, cancels inverse pairs
until the number of gates stops changing. -/

namespace QuantumControl.Circuit

open Pipeline

variable {m : Type → Type} [Monad m]

/-- Whether the size has not been found to be stable yet. -/
def sizeChanges (p : PropertySet) : Bool :=
  match p.getAs? Json.Decoder.bool (fixedPointFlag "size") with
  | .ok (some fixed) => !fixed
  | _ => true

/-- Validate and count. -/
def setupTasks : List (Task m GateList) := [.pass (checkQubits ⟨1⟩), .pass (countOps ⟨2⟩)]

/-- Cancel, count and compare. -/
def optimizeTasks : List (Task m GateList) :=
  [.pass (cancelInversePairs ⟨3⟩), .pass (countOps ⟨4⟩), .pass (fixedPoint ⟨5⟩ "size")]

/-- The loop goes on while the size changes, and is entered above level zero only. -/
def optimizeConditions (level : UInt8) : FlowConditions m :=
  (FlowConditions.empty.insert "condition" (some fun _ => pure (decide (0 < level)))).insert
    "do_while" (some fun p => pure (sizeChanges p))

/-- The transpiler of an optimisation level. The condition wraps the loop: inside of it, a body
that is never run would never let the loop end. -/
def transpiler (level : UInt8) (options : ControllerOptions) :
    Except PassError (PassManager m GateList) := do
  let factory ← Factory.standard.setHierarchy ["do_while", "condition"]
  let pm : PassManager m GateList := { options, factory }
  let pm ← pm.append 6 (.tasks setupTasks) FlowConditions.empty
  pm.append 6 (.tasks optimizeTasks) (optimizeConditions level)

end QuantumControl.Circuit
