import Mathlib.Data.List.TakeWhile
import QuantumControl.Text.Blank

/-!
# Pieces and words of a text

A text is taken apart in two ways: at a separator, where a piece may be empty, and at blanks,
where it may not.  Both are splits of the list of its characters, the first at one character
(`splitAt_eq_splitOn`) and the second at every blank, with the empty pieces left out
(`words_eq_filter_splitOnP`).  So the pieces of two texts with a separator between them are
those of the one and then those of the other.

What is left of a text without the blanks at its ends is said without taking anything off:
it is the part between two runs of blanks that neither begins nor ends with one (`Trims`).
-/

namespace QuantumControl.Text

/-! ## Pieces -/

theorem splitAt_eq_splitOn (separator : Char) (cs : List Char) :
    splitAt separator cs = cs.splitOn separator := by
  induction cs with
  | nil => rw [splitAt, List.splitOn_nil]
  | cons c cs ih =>
      rw [splitAt, List.splitOn_cons_eq_if_modifyHead, ih]
      by_cases here : c = separator
      · rw [if_pos here, if_pos (beq_iff_eq.2 here)]
      · rw [if_neg here, if_neg (mt beq_iff_eq.1 here)]
        -- the empty list of pieces does not occur
        cases pieces : cs.splitOn separator with
        | nil => exact absurd pieces (List.splitOn_ne_nil separator cs)
        | cons piece rest => rfl

/-! ## Words -/

/-- The current word comes first among the pieces between blanks, if it is not empty. -/
theorem wordsFrom_eq (word cs : List Char) :
    wordsFrom word cs = (List.splitOnPPrepend isBlank cs word).filter (· ≠ []) := by
  induction cs generalizing word with
  | nil =>
      rw [wordsFrom, List.splitOnPPrepend_nil]
      cases word <;> simp
  | cons c cs ih =>
      rw [wordsFrom, ih, ih, List.splitOnPPrepend_nil_right]
      by_cases blank : isBlank c
      · rw [if_pos blank, List.splitOnPPrepend_cons_pos blank]
        cases word <;> simp
      · rw [if_neg blank, List.splitOnPPrepend_cons_neg (Bool.eq_false_iff.2 blank)]

/-- The words are the pieces between blanks that are not empty. -/
theorem words_eq_filter_splitOnP (cs : List Char) :
    words cs = (cs.splitOnP isBlank).filter (· ≠ []) := by
  rw [words, wordsFrom_eq, List.splitOnPPrepend_nil_right]

theorem wordsFrom_eq_nil_iff {word cs : List Char} :
    wordsFrom word cs = [] ↔ word = [] ∧ ∀ c ∈ cs, isBlank c := by
  induction cs generalizing word with
  | nil => cases word <;> simp [wordsFrom]
  | cons c cs ih =>
      rw [wordsFrom, List.forall_mem_cons]
      by_cases blank : isBlank c
      · cases word <;> simp [blank, ih]
      · simp [blank, ih]

/-- A text without words has blanks only. -/
theorem words_eq_nil_iff {cs : List Char} : words cs = [] ↔ ∀ c ∈ cs, isBlank c :=
  wordsFrom_eq_nil_iff.trans (and_iff_right rfl)

/-! ## Trimmed texts -/

/-- A part of a text between two runs of blanks that neither begins nor ends with a blank. -/
structure Trims (trimmed cs : List Char) : Prop where
  between : ∃ front back, cs = front ++ (trimmed ++ back) ∧ (∀ c ∈ front, isBlank c) ∧
    ∀ c ∈ back, isBlank c
  head : ∀ c ∈ trimmed.head?, ¬ isBlank c
  last : ∀ c ∈ trimmed.getLast?, ¬ isBlank c

/-- Where a run of blanks ends, the rest does not begin with one. -/
theorem head_dropWhile (cs : List Char) : ∀ c ∈ (cs.dropWhile isBlank).head?, ¬ isBlank c := by
  intro c first
  have stopped := List.head?_dropWhile_not isBlank cs
  rw [Option.mem_def.1 first] at stopped
  exact Bool.eq_false_iff.1 stopped

theorem dropWhile_of_head {cs : List Char} (h : ∀ c ∈ cs.head?, ¬ isBlank c) :
    cs.dropWhile isBlank = cs := by
  cases cs with
  | nil => rfl
  | cons c cs => exact List.dropWhile_cons_of_neg (h c rfl)

/-- Trimming takes a run of blanks off each end. -/
theorem trims_trim (cs : List Char) : Trims (trim cs) cs := by
  let back := ((cs.dropWhile isBlank).reverse.takeWhile isBlank).reverse
  have inner : cs.dropWhile isBlank = trim cs ++ back := by
    rw [trim, ← List.reverse_append, List.takeWhile_append_dropWhile, List.reverse_reverse]
  refine ⟨⟨cs.takeWhile isBlank, back, ?_, ?_, ?_⟩, ?_, ?_⟩
  · rw [← inner, List.takeWhile_append_dropWhile]
  · exact fun c mem => List.mem_takeWhile_imp mem
  · exact fun c mem => List.mem_takeWhile_imp (List.mem_reverse.1 mem)
  · intro c first
    apply head_dropWhile cs
    rw [inner, List.head?_append, Option.mem_def.1 first]
    rfl
  · rw [trim, List.getLast?_reverse]
    exact head_dropWhile _

theorem Trims.trim_eq {trimmed cs : List Char} (h : Trims trimmed cs) : trim cs = trimmed := by
  obtain ⟨⟨front, back, rfl, inFront, behind⟩, head, last⟩ := h
  rw [trim, List.dropWhile_append_of_pos inFront]
  cases trimmed with
  | nil =>
      rw [List.nil_append, List.dropWhile_eq_nil_iff.2 behind]
      rfl
  | cons c rest =>
      have stays : (c :: rest ++ back).dropWhile isBlank = c :: rest ++ back :=
        dropWhile_of_head head
      have reversed : ∀ d ∈ back.reverse, isBlank d := fun d mem =>
        behind d (List.mem_reverse.1 mem)
      rw [stays, List.reverse_append, List.dropWhile_append_of_pos reversed, dropWhile_of_head,
        List.reverse_reverse]
      rwa [List.head?_reverse]

/-- Exactly one part of a text is the text without the blanks at its ends. -/
theorem trim_eq_iff {trimmed cs : List Char} : trim cs = trimmed ↔ Trims trimmed cs :=
  ⟨fun same => same ▸ trims_trim cs, Trims.trim_eq⟩

end QuantumControl.Text
