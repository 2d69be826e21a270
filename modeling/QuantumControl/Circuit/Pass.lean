import QuantumControl.Circuit.Gate
import QuantumControl.Pipeline.Task
import QuantumControl.Table.Sorted

/-! # Passes over gate lists

One check, two analyses that record what they see as properties, and one transformation. -/

namespace QuantumControl.Circuit

open Pipeline

variable {m : Type → Type} [Monad m]

/-! ## Register check -/

/-- The first gate that acts outside the register, with the first such qubit. -/
def GateList.outside? (l : GateList) : Option (Gate × UInt32) :=
  l.gates.findSome? fun g => (g.qubits.find? fun q => l.numQubits ≤ q).map fun q => (g, q)

/-- Refuse a list with a gate outside the register. -/
def checkQubits (id : TaskId) : Pass m GateList :=
  .analysis id "CheckQubits" fun l =>
    match l.outside? with
    | none => return ()
    | some (g, q) =>
        throw (.passFailed "CheckQubits"
          s!"gate '{g.text}' acts on qubit {q}, register has {l.numQubits} qubits")

/-! ## Counting -/

/-- How often each gate name occurs, in ascending order of the names. -/
def histogram (gates : List Gate) : List (String × Nat) :=
  gates.foldl (fun counts g => Sorted.alter g.name (fun n => n.getD 0 + 1) counts) []

/-- Record the number of gates as size, and the number per name. -/
def countOps (id : TaskId) : Pass m GateList :=
  .analysis id "CountOps" fun l => do
    let counts := (histogram l.gates).map fun e => (e.1, Json.int e.2)
    modifyThe PropertySet fun p => (p.set "size" (.int l.size)).set "count_ops" (.object counts)

/-! ## Cancellation -/

/-- Remove adjacent pairs of identical self-inverse gates in one sweep from the left. A pair that
comes together by a removal stays. -/
def cancelPairs : List Gate → List Gate
  | g :: h :: rest =>
      if g.isSelfInverse && g = h then cancelPairs rest else g :: cancelPairs (h :: rest)
  | gates => gates

def cancelInversePairs (id : TaskId) : Pass m GateList :=
  .transformation id "CancelInversePairs" fun l => return { l with gates := cancelPairs l.gates }

/-! ## Fixed points -/

/-- The property that tells whether a property stopped changing. -/
def fixedPointFlag (property : String) : String := property ++ "_fixed_point"

/-- The property that holds a property's last observed value. -/
def previousKey (property : String) : String := "_" ++ property ++ "_previous"

/-- Compare a property with its last observed value, and observe it. -/
def observeProperty (property : String) (p : PropertySet) : PropertySet :=
  let current := p.get? property
  let fixed := current.isSome && current == p.get? (previousKey property)
  let flagged := p.set (fixedPointFlag property) (.bool fixed)
  match current with
  | some value => flagged.set (previousKey property) value
  | none => flagged

def fixedPoint (id : TaskId) (property : String) : Pass m GateList :=
  .analysis id "FixedPoint" fun _ => modifyThe PropertySet (observeProperty property)

end QuantumControl.Circuit
