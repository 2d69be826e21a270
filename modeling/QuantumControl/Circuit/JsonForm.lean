import QuantumControl.Circuit.Gate
import QuantumControl.Json.Decoder

/-! # JSON forms of gates -/

namespace QuantumControl.Circuit

open Json (Decoder)

namespace Gate

def decode : Decoder Gate := fun d => do
  match ← Decoder.fields ["name", "qubits"] d with
  | [name, qubits] =>
      return ⟨← Decoder.required Decoder.string name,
        ← Decoder.required (Decoder.list Decoder.word32) qubits⟩
  | _ => none

def toJson (g : Gate) : Json :=
  Json.ofMembers [("name", .string g.name),
    ("qubits", .array (g.qubits.map fun q => .int q.toNat))]

end Gate

namespace GateList

def decode : Decoder GateList := fun d => do
  match ← Decoder.fields ["num_qubits", "gates"] d with
  | [numQubits, gates] =>
      return ⟨← Decoder.required Decoder.word32 numQubits,
        ← Decoder.required (Decoder.list Gate.decode) gates⟩
  | _ => none

def toJson (l : GateList) : Json :=
  Json.ofMembers [("num_qubits", .int l.numQubits.toNat),
    ("gates", .array (l.gates.map Gate.toJson))]

end GateList

end QuantumControl.Circuit
