import QuantumControl.Circuit.JsonForm
import QuantumControl.Json.Lenient
import QuantumControl.Main
import QuantumControl.Proofs.Circuit.Cancellation
import QuantumControl.Proofs.Circuit.Leftovers
import QuantumControl.Proofs.Circuit.Parsing
import QuantumControl.Proofs.Circuit.Sightings
import QuantumControl.Proofs.Pipeline.Assembly
import QuantumControl.Proofs.Pipeline.Ceiling
import QuantumControl.Proofs.Pipeline.Descent
import QuantumControl.Proofs.Pipeline.History
import QuantumControl.Proofs.Pipeline.Isolation
import QuantumControl.Proofs.Pipeline.Nesting
import QuantumControl.Proofs.Pipeline.Observing
import QuantumControl.Proofs.Pipeline.Pulling
import QuantumControl.Proofs.Pulse.Appending
import QuantumControl.Proofs.Pulse.Binding
import QuantumControl.Proofs.Pulse.Displacement
import QuantumControl.Proofs.Pulse.Envelope
import QuantumControl.Proofs.Pulse.Lineage
import QuantumControl.Proofs.Pulse.OscillatorForm
import QuantumControl.Proofs.Pulse.Packing
import QuantumControl.Proofs.Pulse.Readout
import QuantumControl.Proofs.Pulse.Reordering
import QuantumControl.Proofs.Pulse.Shifting
