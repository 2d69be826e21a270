import QuantumControl.Circuit.Transpiler
import QuantumControl.Cli.Arguments
import QuantumControl.Cli.Report
import QuantumControl.Text.Column

/-! # The pipeline command

Transpiles a gate program and reports every pass. -/

namespace QuantumControl.Cli.Transpile

open Circuit Pipeline

structure Settings where
  program : String
  qubits : UInt32
  level : UInt8
  maxIteration : Nat
  /-- Controller options as JSON, which take the place of the iteration ceiling. -/
  options : Option String
deriving DecidableEq, Repr

def opts : List Opt := [
  ⟨"program", some 'p', .value⟩,
  ⟨"qubits", some 'n', .value⟩,
  ⟨"optimization-level", some 'O', .value⟩,
  ⟨"max-iteration", none, .value⟩,
  ⟨"options", none, .value⟩,
  ⟨"verbose", some 'v', .counted⟩]

/-- Read the settings from the command line and the ceiling in the environment. -/
def Settings.read? (args : List String) (ceiling : Option String) : Option Settings := do
  let uses ← Cli.read? opts args
  let value (name default : String) : String := resolve (uses.value? name) none default
  return {
    program := value "program" "h 0; x 1; x 1; h 0; cx 0 1; cx 0 1; t 2"
    qubits := (← bounded? UInt32.size (value "qubits" "3")).toUInt32
    level := (← bounded? UInt8.size (value "optimization-level" "1")).toUInt8
    maxIteration := ← count? (resolve (uses.value? "max-iteration") ceiling "1000")
    options := uses.value? "options" }

/-- The line for a pass that ran. -/
def passLine (o : Observation Printer GateList) : String :=
  s!"  {Text.alignRight 3 (toString o.count)}. {Text.alignLeft 20 o.pass.name} " ++
    s!"{Text.alignRight 3 (toString o.program.size)} gates"

def report (s : Settings) : Report Unit := do
  Report.header "Pass Pipeline Demo"
  let options ← match s.options with
    | none => pure { maxIteration := s.maxIteration }
    | some text =>
        match ControllerOptions.parse text with
        | .ok options => pure options
        | .error _ => throw "invalid --options"
  Report.part "Input"
  let program ← Report.attempt ((GateList.parse s.qubits s.program).mapError .statement)
  Report.result "Qubits" (toString program.numQubits)
  Report.result "Gates" (toString program.size)
  Report.result "Program" program.text
  Report.part "Pipeline"
  let pm : PassManager Printer GateList ←
    Report.attempt ((transpiler s.level options).mapError .pipeline)
  Report.result "Optimization level" (toString s.level)
  Report.result "Max iteration" (toString options.maxIteration)
  Report.result "Top-level tasks" (toString pm.size)
  Report.part "Execution"
  let ((result, pm), properties) ←
    ExceptT.lift ((pm.run (some fun o => say [passLine o]) program).run PropertySet.empty)
  let output ← Report.attempt (result.mapError .pipeline)
  Report.part "Result"
  Report.result "Program" output.text
  Report.result "Gates" (toString output.size)
  Report.result "Passes executed" (toString pm.state.count)
  match properties.get? "count_ops" with
  | some counts => Report.result "Operation counts" counts.compact
  | none => pure ()
  Report.line ""
  Report.success "Pipeline demo complete!"
  Report.hint
    "Try -O 0 to skip the optimization loop, or --max-iteration 1 to hit the ceiling."

/-- Run the command. -/
def run (args : List String) (ceiling : Option String) : Outcome :=
  match Settings.read? args ceiling with
  | none => .usage
  | some settings => (report settings).outcome

end QuantumControl.Cli.Transpile
