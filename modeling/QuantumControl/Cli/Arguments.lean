import QuantumControl.Text.Numeral

/-! # Command-line arguments

A command line is read against the options that a tool has. An option with a value takes it from
the same argument, after `=` or right behind a one-letter name, or else from the next argument,
which must not look like an option. One-letter switches may be run together. There are no
positional arguments. These are the documented conventions of a library for command lines that is
outside of this project, as far as the tools rely on them. -/

namespace QuantumControl.Cli

/-- How an option may be used. -/
inductive Arity where
  /-- With a value, at most once. -/
  | value
  /-- Without a value, at most once. -/
  | switch
  /-- Without a value, any number of times. -/
  | counted
deriving DecidableEq, Repr

/-- An option of a tool. -/
structure Opt where
  name : String
  letter : Option Char
  arity : Arity
deriving DecidableEq, Repr

/-- The uses of options, in order, each with its value if it has one. -/
abbrev Uses := List (String × Option String)

/-- What a run of one-letter options leaves open. -/
inductive Letters where
  /-- Nothing: the uses are complete. -/
  | complete (uses : Uses)
  /-- The last option's value, which is to be the next argument. -/
  | pending (uses : Uses) (name : String)

/-- Read letters after a single hyphen. -/
def readLetters (opts : List Opt) (uses : Uses) : List Char → Option Letters
  | [] => some (.complete uses)
  | c :: rest =>
      match opts.find? (·.letter = some c) with
      | none => none
      | some o =>
          if o.arity = .value then
            match rest with
            | [] => some (.pending uses o.name)
            | '=' :: value => some (.complete (uses ++ [(o.name, some (String.ofList value))]))
            | value => some (.complete (uses ++ [(o.name, some (String.ofList value))]))
          else readLetters opts (uses ++ [(o.name, none)]) rest

/-- Whether an argument can only be an option. A single hyphen is a value. -/
def looksLikeOption : List Char → Bool
  | '-' :: _ :: _ => true
  | _ => false

/-- A long option's name and, after `=`, its value. -/
def splitLong (cs : List Char) : String × Option String :=
  let name := String.ofList (cs.takeWhile (· ≠ '='))
  match cs.dropWhile (· ≠ '=') with
  | [] => (name, none)
  | _ :: value => (name, some (String.ofList value))

/-- Read arguments; `pending` is an option whose value is due. -/
def readFrom (opts : List Opt) (uses : Uses) (pending : Option String) :
    List (List Char) → Option Uses
  | [] => if pending.isNone then some uses else none
  | arg :: rest =>
      match pending with
      | some name =>
          if looksLikeOption arg then none
          else readFrom opts (uses ++ [(name, some (String.ofList arg))]) none rest
      | none =>
          match arg with
          | ['-', '-'] => if rest.isEmpty then some uses else none
          | '-' :: '-' :: long =>
              let (name, value) := splitLong long
              match opts.find? (·.name = name) with
              | none => none
              | some o =>
                  if o.arity = .value then
                    match value with
                    | some v => readFrom opts (uses ++ [(o.name, some v)]) none rest
                    | none => readFrom opts uses (some o.name) rest
                  else if value.isSome then none
                  else readFrom opts (uses ++ [(o.name, none)]) none rest
          | '-' :: c :: letters =>
              match readLetters opts uses (c :: letters) with
              | none => none
              | some (.complete uses) => readFrom opts uses none rest
              | some (.pending uses name) => readFrom opts uses (some name) rest
          | _ => none

/-- Read a command line, unless an option is used more often than it may be. -/
def read? (opts : List Opt) (args : List String) : Option Uses := do
  let uses ← readFrom opts [] none (args.map String.toList)
  if opts.all fun o => o.arity = .counted || uses.countP (·.1 = o.name) ≤ 1 then some uses else none

namespace Uses

/-- The value given to an option. -/
def value? (uses : Uses) (name : String) : Option String :=
  (uses.find? (·.1 = name)).bind (·.2)

def has (uses : Uses) (name : String) : Bool := uses.any (·.1 = name)

end Uses

/-- An option's value from the command line, or else from the environment, or else the default. -/
def resolve (given environment : Option String) (default : String) : String :=
  given.getD (environment.getD default)

/-- A whole number with an optional sign. -/
def integer? : List Char → Option Int
  | '-' :: digits => (Text.numeral 9223372036854775808 digits).toOption.bind fun n =>
      if digits.head? = some '+' then none else some (-(n : Int))
  | digits => (Text.numeral 9223372036854775807 digits).toOption.map fun n => (n : Int)

/-- A whole number below a bound; a negative zero is one. -/
def bounded? (limit : Nat) (s : String) : Option Nat := do
  let n ← integer? s.toList
  if 0 ≤ n ∧ n < limit then some n.toNat else none

/-- A 64-bit word without minus sign. -/
def count? (s : String) : Option Nat := (Text.numeral (UInt64.size - 1) s.toList).toOption

end QuantumControl.Cli
