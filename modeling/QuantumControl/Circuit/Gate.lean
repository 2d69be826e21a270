import QuantumControl.Text.Blank
import QuantumControl.Text.Numeral

/-! # Gates and gate lists

A gate list is a register of qubits and the gates applied to it in order. Its program text has one
statement per gate, with semicolons between them: the gate's name, then the qubits it acts on. -/

namespace QuantumControl.Circuit

structure Gate where
  name : String
  qubits : List UInt32
deriving DecidableEq, Repr

namespace Gate

/-- The names of the gates that undo themselves. -/
def involutions : List String := ["h", "x", "y", "z", "cx", "cz", "swap"]

/-- Whether applying the gate twice is the identity. -/
def isSelfInverse (g : Gate) : Bool := involutions.contains g.name

def text (g : Gate) : String :=
  g.name ++ String.join (g.qubits.map fun q => s!" q[{q}]")

end Gate

structure GateList where
  numQubits : UInt32
  gates : List Gate
deriving DecidableEq, Repr

namespace GateList

def empty (numQubits : UInt32) : GateList := ⟨numQubits, []⟩

def size (l : GateList) : Nat := l.gates.length

def isEmpty (l : GateList) : Bool := l.gates.isEmpty

/-- The list with one more gate at the end. -/
def withGate (l : GateList) (name : String) (qubits : List UInt32) : GateList :=
  { l with gates := l.gates ++ [⟨name, qubits⟩] }

def text (l : GateList) : String := "; ".intercalate (l.gates.map Gate.text)

end GateList

/-! ## Program text -/

/-- A statement that is no gate, with the first word that is no qubit. -/
structure StatementFault where
  statement : String
  word : String
  fault : Text.NumeralFault
deriving DecidableEq, Repr

def StatementFault.message (f : StatementFault) : String :=
  s!"Cannot parse '{f.statement}': invalid qubit '{f.word}': {f.fault.message}"

namespace Gate

/-- Read the qubits that a statement names. -/
def readQubits (statement : List Char) : List (List Char) → Except StatementFault (List UInt32)
  | [] => .ok []
  | word :: rest =>
      match Text.word32 word with
      | .error fault => .error ⟨String.ofList statement, String.ofList word, fault⟩
      | .ok q => (readQubits statement rest).map (q :: ·)

/-- Read a statement; one without words is no gate. -/
def ofStatement (statement : List Char) : Except StatementFault (Option Gate) :=
  match Text.words statement with
  | [] => .ok none
  | name :: qubits =>
      (readQubits (Text.trim statement) qubits).map fun qs => some ⟨String.ofList name, qs⟩

/-- Read statements in order; the first fault is reported. -/
def ofStatements : List (List Char) → Except StatementFault (List Gate)
  | [] => .ok []
  | s :: rest =>
      match ofStatement s with
      | .error fault => .error fault
      | .ok gate => (ofStatements rest).map (gate.toList ++ ·)

end Gate

/-- Read a program over a register. -/
def GateList.parse (numQubits : UInt32) (program : String) : Except StatementFault GateList :=
  (Gate.ofStatements (Text.splitAt ';' program.toList)).map fun gates => ⟨numQubits, gates⟩

end QuantumControl.Circuit
