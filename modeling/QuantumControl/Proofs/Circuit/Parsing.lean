import Mathlib.Data.List.Forall2
import QuantumControl.Circuit.Gate
import QuantumControl.Proofs.Text.Numeral
import QuantumControl.Proofs.Text.Splitting

/-!
# Programs put together from programs

A program is read statement by statement, up to the first one that is no gate.  The
statements of two programs with a semicolon between them are those of the one and then those
of the other, and reading a list of statements is reading its first part and then the rest
(`ofStatements_append`).  So a program that is put together from two is read as the two are,
and fails where the first of them does.

Which programs are read, and what a fault quotes, is said here on the text alone: the pieces
between semicolons, in each of them the pieces between blanks that are not empty, and which of
these are literals (`Statement.IsQubit`).
-/

namespace QuantumControl.Circuit

/-! ## The first of a list without a property -/

section First

variable {α : Type} {p : α → Prop} [DecidablePred p] {as : List α}

theorem of_find?_not {a : α} (h : as.find? (¬ p ·) = some a) : a ∈ as ∧ ¬ p a :=
  ⟨List.mem_of_find?_eq_some h, by simpa using List.find?_some h⟩

theorem exists_find?_not (h : ∃ a ∈ as, ¬ p a) : ∃ a, as.find? (¬ p ·) = some a := by
  rw [← Option.isSome_iff_exists, List.find?_isSome]
  simpa using h

end First

/-! ## Results under a function -/

section Mapped

variable {ε α β : Type} {result : Except ε α} {f : α → β}

theorem map_eq_ok_iff {b : β} : result.map f = .ok b ↔ ∃ a, result = .ok a ∧ f a = b := by
  cases result with
  | error fault => exact ⟨nofun, nofun⟩
  | ok a => simp [Except.map]

theorem map_eq_error_iff {fault : ε} : result.map f = .error fault ↔ result = .error fault := by
  cases result with
  | error other => simp [Except.map]
  | ok a => exact ⟨nofun, nofun⟩

end Mapped

/-! ## Statements -/

/-- The statements of a program, with empty ones. -/
def statements (program : String) : List (List Char) := program.toList.splitOn ';'

namespace Statement

/-- The words of a statement. -/
def words (statement : List Char) : List (List Char) :=
  (statement.splitOnP Text.isBlank).filter (· ≠ [])

/-- The words that should be qubits: all after the first one. -/
def operands (statement : List Char) : List (List Char) := (words statement).tail

/-- A statement of blanks, or of nothing at all. -/
def Blank (statement : List Char) : Prop := ∀ c ∈ statement, Text.isBlank c

instance : DecidablePred Blank := fun statement =>
  inferInstanceAs (Decidable (∀ c ∈ statement, Text.isBlank c))

/-- A literal of a 32-bit word: at most one plus sign, then one or more ASCII digits. -/
def IsQubit (word : List Char) : Prop :=
  ∃ sign digits, word = sign ++ digits ∧ (sign = [] ∨ sign = ['+']) ∧ digits ≠ [] ∧
    (∀ d ∈ digits, d.isDigit) ∧ Decimal.digitsValue digits ≤ 4294967295

theorem words_eq (statement : List Char) : words statement = Text.words statement :=
  (Text.words_eq_filter_splitOnP statement).symm

theorem words_eq_nil_iff {statement : List Char} : words statement = [] ↔ Blank statement := by
  rw [words_eq]
  exact Text.words_eq_nil_iff

theorem isQubit_iff {word : List Char} : IsQubit word ↔ ∃ q, Text.word32 word = .ok q := by
  simp only [Text.word32_eq_ok_iff]
  constructor
  · rintro ⟨sign, digits, whole, signed, nonempty, ascii, bounded⟩
    refine ⟨(Decimal.digitsValue digits).toUInt32, sign, digits, whole, signed, nonempty, ascii, ?_⟩
    exact (Nat.mod_eq_of_lt (Nat.lt_succ_of_le bounded)).symm
  · rintro ⟨q, sign, digits, whole, signed, nonempty, ascii, value⟩
    exact ⟨sign, digits, whole, signed, nonempty, ascii, value ▸ Nat.le_of_lt_succ q.toNat_lt⟩

theorem isQubit_iff_isOk {word : List Char} : (Text.word32 word).isOk ↔ IsQubit word := by
  rw [isQubit_iff]
  cases Text.word32 word <;> simp [Except.isOk, Except.toBool]

instance : DecidablePred IsQubit := fun _ => decidable_of_iff _ isQubit_iff_isOk

/-- A statement whose operands are all qubits. -/
def Legible (statement : List Char) : Prop := ∀ word ∈ operands statement, IsQubit word

instance : DecidablePred Legible := fun statement =>
  inferInstanceAs (Decidable (∀ word ∈ operands statement, IsQubit word))

/-- The gate of a statement: the first word is its name, and the others spell its qubits. -/
def Says (statement : List Char) (gate : Gate) : Prop :=
  ∃ qubits, words statement = gate.name.toList :: qubits ∧
    List.Forall₂ (fun word q => Text.Spells q.toNat word) qubits gate.qubits

/-- A fault quotes the first operand of a statement that is no qubit, and the statement without the
blanks at its ends. -/
def Faults (statement : List Char) (fault : StatementFault) : Prop :=
  ∃ word reason, (operands statement).find? (¬ IsQubit ·) = some word ∧
    Text.word32 word = .error reason ∧
    ∃ trimmed, Text.Trims trimmed statement ∧
      fault = ⟨String.ofList trimmed, String.ofList word, reason⟩

theorem not_legible_iff {statement : List Char} :
    ¬ Legible statement ↔ ∃ word ∈ operands statement, ¬ IsQubit word := by
  simp [Legible]

/-- What is the matter with a statement can be quoted. -/
theorem exists_faults_iff {statement : List Char} :
    (∃ fault, Faults statement fault) ↔ ¬ Legible statement := by
  rw [not_legible_iff]
  constructor
  · rintro ⟨fault, word, -, first, -⟩
    exact ⟨word, of_find?_not first⟩
  · intro stuck
    obtain ⟨word, first⟩ := exists_find?_not stuck
    cases read : Text.word32 word with
    | ok q => exact absurd (isQubit_iff.2 ⟨q, read⟩) (of_find?_not first).2
    | error reason => exact ⟨_, word, reason, first, read, _, Text.trims_trim statement, rfl⟩

end Statement

open Statement

/-! ## Reading a statement -/

namespace Gate

/-- The qubits that are read are those that the words spell. -/
theorem readQubits_eq_ok_iff {statement : List Char} {ws : List (List Char)} {qs : List UInt32} :
    readQubits statement ws = .ok qs ↔
      List.Forall₂ (fun word q => Text.Spells q.toNat word) ws qs := by
  have spelled : (fun word (q : UInt32) => Text.Spells q.toNat word) =
      fun word q => Text.word32 word = .ok q := by
    funext word q
    exact propext Text.word32_eq_ok_iff.symm
  rw [spelled]
  induction ws generalizing qs with
  | nil => simp [readQubits, eq_comm]
  | cons word ws ih =>
      rw [readQubits, List.forall₂_cons_left_iff]
      simp only [← ih]
      cases Text.word32 word with
      | error fault => simp
      | ok q =>
          dsimp only
          rw [map_eq_ok_iff]
          simp [eq_comm]

theorem readQubits_eq_error_iff {statement : List Char} {ws : List (List Char)}
    {fault : StatementFault} :
    readQubits statement ws = .error fault ↔
      ∃ word reason, ws.find? (¬ IsQubit ·) = some word ∧ Text.word32 word = .error reason ∧
        fault = ⟨String.ofList statement, String.ofList word, reason⟩ := by
  induction ws with
  | nil => simp [readQubits]
  | cons word ws ih =>
      rw [readQubits, List.find?_cons]
      cases read : Text.word32 word with
      | error reason =>
          have illegible : ¬ IsQubit word := by simp [isQubit_iff, read]
          simp [illegible, read, eq_comm]
      | ok q =>
          have legible : IsQubit word := isQubit_iff.2 ⟨q, read⟩
          simp only [legible, not_true, decide_false, ← ih]
          exact map_eq_error_iff

section Statement

variable {statement : List Char}

theorem ofStatement_of_nil (h : words statement = []) : ofStatement statement = .ok none := by
  rw [words_eq] at h
  rw [ofStatement, h]

theorem ofStatement_of_cons {name : List Char} {ops : List (List Char)}
    (h : words statement = name :: ops) :
    ofStatement statement =
      (readQubits (Text.trim statement) ops).map fun qs => some ⟨String.ofList name, qs⟩ := by
  rw [words_eq] at h
  rw [ofStatement, h]

/-- A statement without words is no gate, and it is the only one. -/
theorem ofStatement_eq_none_iff : ofStatement statement = .ok none ↔ words statement = [] := by
  cases split : words statement with
  | nil => simp [ofStatement_of_nil split]
  | cons name ops =>
      rw [ofStatement_of_cons split, map_eq_ok_iff]
      simp

theorem ofStatement_eq_some_iff {gate : Gate} :
    ofStatement statement = .ok (some gate) ↔ Says statement gate := by
  unfold Says
  cases split : words statement with
  | nil => simp [ofStatement_of_nil split]
  | cons name ops =>
      rw [ofStatement_of_cons split]
      constructor
      · intro made
        obtain ⟨qs, read, same⟩ := map_eq_ok_iff.1 made
        cases same
        exact ⟨ops, by rw [String.toList_ofList], readQubits_eq_ok_iff.1 read⟩
      · rintro ⟨qubits, same, spelled⟩
        obtain ⟨rfl, rfl⟩ := List.cons.inj same
        rw [readQubits_eq_ok_iff.2 spelled, String.ofList_toList]
        rfl

theorem ofStatement_eq_error_iff {fault : StatementFault} :
    ofStatement statement = .error fault ↔ Faults statement fault := by
  simp only [Faults, operands, ← Text.trim_eq_iff, exists_eq_left']
  cases split : words statement with
  | nil => simp [ofStatement_of_nil split]
  | cons name ops =>
      rw [ofStatement_of_cons split, List.tail_cons, ← readQubits_eq_error_iff]
      exact map_eq_error_iff

/-- A statement is read if and only if its operands are qubits. -/
theorem exists_ofStatement_iff :
    (∃ gate, ofStatement statement = .ok gate) ↔ Legible statement := by
  rw [← not_iff_not, ← exists_faults_iff]
  simp only [← ofStatement_eq_error_iff]
  cases ofStatement statement <;> simp

end Statement

/-! ## Reading statements in order -/

theorem ofStatements_cons (s : List Char) (rest : List (List Char)) :
    ofStatements (s :: rest) =
      ofStatement s >>= fun gate => (ofStatements rest).map (gate.toList ++ ·) := by
  rw [ofStatements]
  cases ofStatement s <;> rfl

/-- The first part of a list of statements is read first, and the rest only if nothing is the matter
with it. -/
theorem ofStatements_append (first rest : List (List Char)) :
    ofStatements (first ++ rest) =
      ofStatements first >>= fun gates => (ofStatements rest).map (gates ++ ·) := by
  induction first with
  | nil =>
      show ofStatements rest = (ofStatements rest).map ([] ++ ·)
      cases ofStatements rest <;> rfl
  | cons s first ih =>
      rw [List.cons_append, ofStatements_cons, ofStatements_cons, ih, bind_assoc]
      refine bind_congr fun gate => ?_
      cases ofStatements first with
      | error fault => rfl
      | ok gates => cases ofStatements rest <;> simp [Except.map, bind, Except.bind]

/-- Each statement that is not blank says one gate, and the others say none. -/
theorem ofStatements_eq_ok_iff {ss : List (List Char)} {gates : List Gate} :
    ofStatements ss = .ok gates ↔ List.Forall₂ Says (ss.filter (¬ Blank ·)) gates := by
  induction ss generalizing gates with
  | nil => simp [ofStatements, eq_comm]
  | cons s rest ih =>
      rw [ofStatements_cons]
      by_cases blank : Blank s
      · rw [List.filter_cons_of_neg (by simpa using blank), ← ih,
          ofStatement_eq_none_iff.2 (words_eq_nil_iff.2 blank)]
        cases ofStatements rest <;> rfl
      · rw [List.filter_cons_of_pos (by simpa using blank), List.forall₂_cons_left_iff]
        simp only [← ih, ← ofStatement_eq_some_iff]
        cases read : ofStatement s with
        | error fault => simp [bind, Except.bind]
        | ok gate =>
            cases gate with
            | none => exact absurd (words_eq_nil_iff.1 (ofStatement_eq_none_iff.1 read)) blank
            | some g =>
                show (ofStatements rest).map (g :: ·) = .ok gates ↔ _
                rw [map_eq_ok_iff]
                simp [eq_comm]

theorem ofStatements_eq_error_iff {ss : List (List Char)} {fault : StatementFault} :
    ofStatements ss = .error fault ↔
      ∃ s, ss.find? (¬ Legible ·) = some s ∧ Faults s fault := by
  induction ss with
  | nil => simp [ofStatements]
  | cons s rest ih =>
      rw [ofStatements_cons, List.find?_cons]
      cases read : ofStatement s with
      | error first =>
          have illegible : ¬ Legible s := by simp [← exists_ofStatement_iff, read]
          simp [illegible, ← ofStatement_eq_error_iff, read, bind, Except.bind]
      | ok gate =>
          have legible : Legible s := exists_ofStatement_iff.1 ⟨gate, read⟩
          simp only [legible, not_true, decide_false, ← ih]
          exact map_eq_error_iff

end Gate

/-! ## Programs -/

namespace GateList

theorem parse_eq (numQubits : UInt32) (program : String) :
    parse numQubits program =
      (Gate.ofStatements (statements program)).map fun gates => ⟨numQubits, gates⟩ := by
  rw [parse, Text.splitAt_eq_splitOn]
  rfl

theorem statements_append (p q : String) :
    statements (p ++ ";" ++ q) = statements p ++ statements q := by
  rw [statements, String.toList_append, String.toList_append, List.append_assoc]
  exact List.splitOn_append_cons_self _ _

section Parsing

variable {numQubits : UInt32} {program : String}

theorem parse_eq_ok_iff {l : GateList} :
    parse numQubits program = .ok l ↔
      l.numQubits = numQubits ∧
        List.Forall₂ Says ((statements program).filter (¬ Blank ·)) l.gates := by
  rw [parse_eq, ← Gate.ofStatements_eq_ok_iff, map_eq_ok_iff]
  obtain ⟨n, gates⟩ := l
  simp [eq_comm, and_comm]

theorem parse_eq_error_iff {fault : StatementFault} :
    parse numQubits program = .error fault ↔
      ∃ s, (statements program).find? (¬ Legible ·) = some s ∧ Faults s fault := by
  rw [parse_eq, ← Gate.ofStatements_eq_error_iff, map_eq_error_iff]

theorem exists_parse_eq_error_iff :
    (∃ fault, parse numQubits program = .error fault) ↔
      ∃ s ∈ statements program, ∃ word ∈ operands s, ¬ IsQubit word := by
  simp only [parse_eq_error_iff, ← not_legible_iff]
  constructor
  · rintro ⟨fault, s, first, -⟩
    exact ⟨s, of_find?_not first⟩
  · intro stuck
    obtain ⟨s, first⟩ := exists_find?_not stuck
    obtain ⟨fault, faults⟩ := exists_faults_iff.2 (of_find?_not first).2
    exact ⟨fault, s, first, faults⟩

end Parsing

section Putting

variable (numQubits : UInt32) (p : String)

/-- A program that is put together from two is read as the first one, and then as the second. -/
theorem parse_append (q : String) :
    parse numQubits (p ++ ";" ++ q) =
      parse numQubits p >>= fun l =>
        (parse numQubits q).map fun k => ⟨numQubits, l.gates ++ k.gates⟩ := by
  rw [parse_eq, parse_eq, parse_eq, statements_append, Gate.ofStatements_append]
  cases Gate.ofStatements (statements p) with
  | error fault => rfl
  | ok gates => cases Gate.ofStatements (statements q) <;> rfl

variable {blank : String} (spaces : Blank blank.toList)

include spaces

/-- A blank program has no gates. -/
theorem parse_blank : parse numQubits blank = .ok (empty numQubits) := by
  have single : statements blank = [blank.toList] :=
    List.splitOn_eq_singleton fun separator => absurd (spaces ';' separator) (by decide)
  refine parse_eq_ok_iff.2 ⟨rfl, ?_⟩
  rw [single, List.filter_cons_of_neg (by simpa using spaces)]
  exact .nil

theorem parse_blank_append : parse numQubits (blank ++ ";" ++ p) = parse numQubits p := by
  rw [parse_append, parse_blank numQubits spaces, parse_eq]
  cases Gate.ofStatements (statements p) <;> rfl

theorem parse_append_blank : parse numQubits (p ++ ";" ++ blank) = parse numQubits p := by
  rw [parse_append, parse_blank numQubits spaces, parse_eq]
  cases Gate.ofStatements (statements p) with
  | error fault => rfl
  | ok gates =>
      show Except.ok (GateList.mk numQubits (gates ++ [])) = _
      rw [List.append_nil]
      rfl

end Putting

/-- A program that is put together from two fails with the fault of the first one, or else with that
of the second one, or else has the gates of the first one and then those of the second one.  A
program is refused if and only if some word after the first one of a statement is no literal of a
32-bit word; the fault quotes the first such statement, without the blanks at its ends, and the
first such word of it.  A program that is read has one gate for each statement that is not blank,
in order, and a blank statement changes nothing wherever it stands. -/
theorem parse_compositional (numQubits : UInt32) :
    (∀ p q : String,
      (∀ fault, parse numQubits p = .error fault →
        parse numQubits (p ++ ";" ++ q) = .error fault) ∧
      ∀ l, parse numQubits p = .ok l →
        (∀ fault, parse numQubits q = .error fault →
          parse numQubits (p ++ ";" ++ q) = .error fault) ∧
        ∀ k, parse numQubits q = .ok k →
          parse numQubits (p ++ ";" ++ q) = .ok ⟨numQubits, l.gates ++ k.gates⟩) ∧
    (∀ program : String,
      ((∃ fault, parse numQubits program = .error fault) ↔
        ∃ s ∈ statements program, ∃ word ∈ operands s, ¬ IsQubit word) ∧
      (∀ fault, parse numQubits program = .error fault ↔
        ∃ s, (statements program).find? (¬ Legible ·) = some s ∧ Faults s fault) ∧
      ∀ l, parse numQubits program = .ok l ↔
        l.numQubits = numQubits ∧
          List.Forall₂ Says ((statements program).filter (¬ Blank ·)) l.gates) ∧
    ∀ blank : String, Blank blank.toList →
      parse numQubits blank = .ok (empty numQubits) ∧
      ∀ p, parse numQubits (blank ++ ";" ++ p) = parse numQubits p ∧
        parse numQubits (p ++ ";" ++ blank) = parse numQubits p := by
  refine ⟨fun p q => ⟨fun fault failed => ?_, fun l read => ⟨fun fault failed => ?_,
    fun k rest => ?_⟩⟩,
    fun _ => ⟨exists_parse_eq_error_iff, fun _ => parse_eq_error_iff, fun _ => parse_eq_ok_iff⟩,
    fun _ spaces => ⟨parse_blank numQubits spaces,
      fun p => ⟨parse_blank_append numQubits p spaces, parse_append_blank numQubits p spaces⟩⟩⟩
  · rw [parse_append, failed]
    rfl
  · rw [parse_append, read, failed]
    rfl
  · rw [parse_append, read, rest]
    rfl

/-- A program with separators at its ends and a plus sign, one that fails in its second statement,
and one of blanks. -/
theorem parse_compositional_blanks :
    let good := " ;h 0"
    let more := "\tcx +0 1;"
    let bad := "x 1; h 0 zero 4294967296 ;y -1"
    let fault : StatementFault := ⟨"h 0 zero 4294967296", "zero", .notADigit⟩
    parse 2 (good ++ ";" ++ more) = .ok ⟨2, [⟨"h", [0]⟩, ⟨"cx", [0, 1]⟩]⟩ ∧
      parse 2 (bad ++ ";" ++ good) = .error fault ∧ parse 2 (good ++ ";" ++ bad) = .error fault ∧
      Blank "\t ".toList ∧ parse 2 ("\t " ++ ";" ++ bad) = .error fault := by
  intro good more bad fault
  have first : parse 2 " ;h 0" = .ok ⟨2, [⟨"h", [0]⟩]⟩ := by decide
  have second : parse 2 "\tcx +0 1;" = .ok ⟨2, [⟨"cx", [0, 1]⟩]⟩ := by decide
  have failed : parse 2 "x 1; h 0 zero 4294967296 ;y -1" =
      .error ⟨"h 0 zero 4294967296", "zero", .notADigit⟩ := by decide
  have spaces : Blank "\t ".toList := by
    intro c mem
    rcases List.mem_pair.1 mem with rfl | rfl
    · decide
    · decide
  obtain ⟨composed, -, nothing⟩ := parse_compositional 2
  exact ⟨((composed good more).2 _ first).2 _ second, (composed bad good).1 _ failed,
    ((composed good bad).2 _ first).1 _ failed, spaces,
    ((nothing _ spaces).2 bad).1.trans failed⟩

end GateList

end QuantumControl.Circuit
