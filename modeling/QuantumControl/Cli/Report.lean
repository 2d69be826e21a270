import QuantumControl.Error

/-! # Reports

A tool prints lines one after the other and may stop with a fault at any point; the lines printed
up to then stay. -/

namespace QuantumControl.Cli

/-- The outcome of a command. -/
inductive Outcome where
  /-- The command line was not understood. -/
  | usage
  | done (lines : List String)
  | failed (lines : List String) (message : String)
deriving DecidableEq, Repr

/-- Printing. -/
abbrev Printer := StateM (List String)

/-- Printing that may stop with a message. -/
abbrev Report := ExceptT String Printer

/-- Print lines. -/
def say (lines : List String) : Printer Unit := modify (· ++ lines)

namespace Report

def lines (ls : List String) : Report Unit := ExceptT.lift (say ls)

def line (l : String) : Report Unit := lines [l]

def header (title : String) : Report Unit :=
  let bar := String.ofList (List.replicate 60 '═')
  lines ["", bar, "  " ++ title, bar, ""]

def part (title : String) : Report Unit :=
  lines ["", "▶ " ++ title, String.ofList (List.replicate 40 '─')]

def result (label value : String) : Report Unit := line ("  " ++ label ++ ": " ++ value)

def success (message : String) : Report Unit := line ("✓ " ++ message)

def hint (message : String) : Report Unit := line ("ℹ " ++ message)

/-- Go on with a value, or stop with the fault's message. -/
def attempt {α : Type} (r : Except ToolError α) : Report α :=
  match r with
  | .ok a => pure a
  | .error e => throw e.message

/-- The outcome of a report. -/
def outcome (r : Report Unit) : Outcome :=
  match r.run.run [] with
  | (.ok (), printed) => .done printed
  | (.error message, printed) => .failed printed message

end Report

/-- A finished line that is held backwards, without a carriage return at its end. -/
def lineOf : List Char → String
  | '\r' :: current => String.ofList current.reverse
  | current => String.ofList current.reverse

/-- The lines from the current one on, whose characters so far are held backwards. -/
def linesFrom (current : List Char) : List Char → List String
  | [] => if current.isEmpty then [] else [String.ofList current.reverse]
  | c :: cs => if c = '\n' then lineOf current :: linesFrom [] cs else linesFrom (c :: current) cs

/-- The lines of a text, each of which ends with a newline, but the last one need not. -/
def splitLines (s : String) : List String := linesFrom [] s.toList

end QuantumControl.Cli
