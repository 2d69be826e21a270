import QuantumControl.Cli.Sweep
import QuantumControl.Cli.Transpile

/-! # The program

The first argument names the command, the rest are the command's own. -/

namespace QuantumControl.Cli

/-- Print an outcome and return the exit code. -/
def deliver : Outcome → IO UInt32
  | .usage => do
      IO.eprintln "usage: demo-pipeline [-p PROGRAM] [-n QUBITS] [-O LEVEL] [--max-iteration N]"
      IO.eprintln "         [--options JSON] [-v]..."
      IO.eprintln "       demo-schedule [-n QUBITS] [-s STEPS] [--drive-lo HZ] [--detuning HZ]"
      IO.eprintln "         [--show-instructions] [-v]..."
      return 2
  | .done lines => do
      lines.forM IO.println
      return 0
  | .failed lines message => do
      lines.forM IO.println
      IO.eprintln ("Error: " ++ message)
      return 1

end QuantumControl.Cli

open QuantumControl.Cli in
def main (args : List String) : IO UInt32 := do
  match args with
  | "demo-pipeline" :: rest => deliver (Transpile.run rest (← IO.getEnv "ARVAK_MAX_ITERATION"))
  | "demo-schedule" :: rest => deliver (Sweep.run rest (← IO.getEnv "ARVAK_TARGET_STEPS"))
  | _ => deliver .usage
