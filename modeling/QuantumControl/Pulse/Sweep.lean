import QuantumControl.Pulse.Oscillator

/-! # Amplitude sweeps

A rotation on every qubit in parallel, then the measurement of all of them; and a sweep of the
rotation's amplitude over a number of experiments. -/

namespace QuantumControl.Pulse

/-- The duration of a rotation, in samples. -/
def rotationDuration : UInt32 := 160

/-- The duration of the readout stimulus and of the acquisition, in samples. -/
def readoutDuration : UInt32 := 1200

/-- A quarter turn. -/
def quarterTurn : Float := 1.5707963267948966

/-- The rotation played on every drive channel. -/
def x90 (amplitude : Float) : Except PulseError ParametricPulse :=
  (ParametricPulse.drag rotationDuration ⟨amplitude, 0⟩ 40 0.2).map (·.withName "x90")

/-- The readout stimulus of a measure channel. -/
def stimulus : Except PulseError ParametricPulse :=
  (ParametricPulse.gaussianSquare readoutDuration ⟨0.15, 0⟩ 64 (.riseFallSigmaRatio 2)).map
    (·.withName "m_stimulus")

/-- The indices of the qubits of a register. -/
def qubitIndices (numQubits : UInt32) : List UInt32 :=
  (List.range numQubits.toNat).map Nat.toUInt32

/-- Rotate a qubit at zero, then turn its frame after everything placed so far. -/
def addRotation (amplitude : Float) (s : Schedule) (qubit : UInt32) :
    Except PulseError Schedule := do
  let rotation ← Instruction.play (.parametric (← x90 amplitude)) (.drive qubit)
  let s ← s.insert Time.zero (.instruction rotation)
  s.append (.instruction (← Instruction.frameChange quarterTurn (.drive qubit)))

/-- Play the readout stimulus of a qubit at a time. -/
def addStimulus (time : Time) (s : Schedule) (qubit : UInt32) : Except PulseError Schedule := do
  s.insert time (.instruction (← Instruction.play (.parametric (← stimulus)) (.measure qubit)))

/-- Rotate all qubits, then measure all of them from the end of the last rotation on. -/
def rotateAndMeasure (id : ScheduleId) (numQubits : UInt32) (amplitude : Float) :
    Except PulseError Schedule := do
  let qubits := qubitIndices numQubits
  let rotated ← qubits.foldlM (addRotation amplitude) (Schedule.new id (some "rotation"))
  let readout := rotated.stop
  let stimulated ← qubits.foldlM (addStimulus readout) rotated
  let acquisition : Acquisition := { duration := readoutDuration, discriminator := some "linear" }
  stimulated.insert readout (.instruction (← Instruction.acquire acquisition qubits qubits []))

/-- The amplitude of a step of a sweep, up to one half in the last one. -/
def sweepAmplitude (steps step : Nat) : Float :=
  Float.ofNat (step + 1) / Float.ofNat (max steps 1) * 0.5

/-- One experiment per step. The drive oscillator of the first qubit is detuned if a detuning is
given. -/
def amplitudeSweep (ids : Nat → ScheduleId) (numQubits steps : UInt32) (driveLo : Float)
    (detuning : Option Float) : Except PulseError (List ConfiguredSchedule) := do
  let lo ← match detuning with
    | some d => LoConfig.empty.set (.drive 0) (driveLo + d)
    | none => pure LoConfig.empty
  (List.range steps.toNat).mapM fun step => do
    let schedule ← rotateAndMeasure (ids step) numQubits (sweepAmplitude steps.toNat step)
    return { schedule, lo, ownName := some s!"amp_sweep_{step}" }

end QuantumControl.Pulse
