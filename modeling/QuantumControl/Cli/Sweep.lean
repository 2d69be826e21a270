import QuantumControl.Cli.Arguments
import QuantumControl.Cli.Report
import QuantumControl.Pulse.Sweep
import QuantumControl.Text.Quoted

/-! # The schedule command

Builds an amplitude sweep and shows how placement conflicts are reported. -/

namespace QuantumControl.Cli.Sweep

open Pulse

structure Settings where
  qubits : UInt32
  steps : UInt32
  driveLo : Float
  detuning : Option Float
  showInstructions : Bool

def opts : List Opt := [
  ⟨"qubits", some 'n', .value⟩,
  ⟨"steps", some 's', .value⟩,
  ⟨"drive-lo", none, .value⟩,
  ⟨"detuning", none, .value⟩,
  ⟨"show-instructions", none, .switch⟩,
  ⟨"verbose", some 'v', .counted⟩]

/-- Read the settings from the command line and the number of steps in the environment. -/
def Settings.read? (args : List String) (steps : Option String) : Option Settings := do
  let uses ← Cli.read? opts args
  let value (name default : String) : String := resolve (uses.value? name) none default
  let detuning ← match uses.value? "detuning" with
    | none => some none
    | some text => (Decimal.read? text).map some
  return {
    qubits := (← bounded? UInt32.size (value "qubits" "2")).toUInt32
    steps := (← bounded? UInt32.size (resolve (uses.value? "steps") steps "4")).toUInt32
    driveLo := ← Decimal.read? (value "drive-lo" "5.0e9")
    detuning
    showInstructions := uses.has "show-instructions" }

/-- Lineages counted up from a number. -/
def lineage (n : Nat) : ScheduleId := ⟨Uuid.ofRandom (BitVec.ofNat 128 n)⟩

/-- The line for an experiment: its size and its qubits' oscillator frequencies. -/
def experimentLine (e : ConfiguredSchedule) (frequencies : List Float) : String :=
  s!"{e.schedule.children.length} instructions, duration {e.schedule.localStop}, " ++
    s!"qubit LOs {Text.bracketed (frequencies.map Decimal.listed)}"

def report (s : Settings) : Report Unit := do
  let attempt {α : Type} (r : Except PulseError α) : Report α :=
    Report.attempt (r.mapError .schedule)
  Report.header "Pulse Scheduling Demo"
  Report.part "Sweep Setup"
  Report.result "Qubits" (toString s.qubits)
  Report.result "Steps" (toString s.steps)
  Report.result "Drive LO" (Decimal.fixed 4 (s.driveLo / 1e9) ++ " GHz")
  match s.detuning with
  | some d => Report.result "Qubit 0 detuning" (Decimal.fixedSigned 3 (d / 1e6) ++ " MHz")
  | none => pure ()
  Report.part "Experiments"
  let experiments ←
    attempt (amplitudeSweep (fun n => lineage (n + 1)) s.qubits s.steps s.driveLo s.detuning)
  let defaults := List.replicate s.qubits.toNat s.driveLo
  experiments.forM fun e => do
    let frequencies ← attempt (e.lo.qubitFrequencies defaults)
    Report.result (e.name.getD "unnamed") (experimentLine e frequencies)
  if s.showInstructions then
    match experiments with
    | first :: _ =>
        Report.part "Instructions"
        Report.lines (splitLines (first.schedule.text ++ "\n"))
    | [] => pure ()
  Report.part "Admission Control"
  let schedule ← attempt (rotateAndMeasure (lineage 0) (max s.qubits 1) 0.25)
  let clash ← attempt do Instruction.play (.parametric (← x90 0.25)) (.drive 0)
  match schedule.insert (Time.ofSamples 80) (.instruction clash) with
  | .ok _ => Report.hint "Unexpectedly placed an overlapping pulse"
  | .error e => Report.result "Insert at 80 on d0" e.message
  let placed ← attempt (schedule.append (.instruction clash))
  Report.result "Append on d0"
    (s!"placed at {placed.stop.val - rotationDuration.toNat}, " ++
      s!"schedule now ends at {placed.stop}")
  Report.line ""
  Report.success "Schedule demo complete!"

/-- Run the command. -/
def run (args : List String) (steps : Option String) : Outcome :=
  match Settings.read? args steps with
  | none => .usage
  | some settings => (report settings).outcome

end QuantumControl.Cli.Sweep
