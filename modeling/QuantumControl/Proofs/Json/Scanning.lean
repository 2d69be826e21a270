import Mathlib.Data.List.TakeWhile
import Mathlib.Tactic.SplitIfs
import QuantumControl.Json.Printer
import QuantumControl.Json.Token
import QuantumControl.Proofs.Text.Numeral

/-!
# Scanning printed text

The scanner looks at the tokens that it has finished only to add one (`foldlM_following`), and a
mark such as a comma ends whatever is under way.  So a text that is put together from pieces
with marks between them is scanned piece by piece (`scan_append_mark`).

A whole number that fits a word is scanned to itself (`scan_toString`).  A string is printed
with escapes, none of which ends it early, and scanning takes them back: every string is
scanned to itself (`scan_stringText`).
-/

namespace QuantumControl.Json

open Text (hexDigit?)

/-! ## What was scanned before -/

namespace Scanner

/-- The scanner with more tokens finished before. -/
def following (before : List Token) (s : Scanner) : Scanner := ⟨s.mode, s.tokens ++ before⟩

section Following

variable (before : List Token)

theorem begin?_following (tokens : List Token) (c : Char) :
    begin? (tokens ++ before) c = (begin? tokens c).map (following before) := by
  unfold begin?
  split <;> try rfl
  split_ifs <;> rfl

theorem step_following (s : Scanner) (c : Char) :
    step (following before s) c = (step s c).map (following before) := by
  obtain ⟨mode, tokens⟩ := s
  have afterToken (t : Option Token) :
      (t >>= fun t => begin? (t :: (tokens ++ before)) c) =
        (t >>= fun t => begin? (t :: tokens) c).map (following before) := by
    cases t with
    | none => rfl
    | some t => exact begin?_following before (t :: tokens) c
  cases mode with
  | between => exact begin?_following before tokens c
  | word run =>
      simp only [step, following]
      split_ifs
      · rfl
      · exact afterToken _
  | number run =>
      simp only [step, following]
      split_ifs
      · rfl
      · exact afterToken _
  | text run escaped =>
      simp only [step, following]
      split_ifs
      · rfl
      · cases string? run <;> rfl
      · rfl

theorem foldlM_following (cs : List Char) (s : Scanner) :
    cs.foldlM step (following before s) = (cs.foldlM step s).map (following before) := by
  induction cs generalizing s with
  | nil => rfl
  | cons c cs ih =>
      rw [List.foldlM_cons, List.foldlM_cons, step_following]
      cases step s c with
      | none => rfl
      | some next => exact ih next

theorem finish_following (s : Scanner) :
    (following before s).finish = s.finish.map (before.reverse ++ ·) := by
  obtain ⟨mode, tokens⟩ := s
  cases mode with
  | between => simp [finish, following]
  | word run => cases h : word? run <;> simp [finish, following, h]
  | number run => cases h : number? run <;> simp [finish, following, h]
  | text run escaped => rfl

end Following

end Scanner

/-! ## Marks -/

open Scanner

/-- A character that ends the token before it and is a token of its own. -/
structure IsMark (c : Char) (t : Token) : Prop where
  begins : ∀ tokens, begin? tokens c = some ⟨.between, t :: tokens⟩
  ends : isWordChar c = false ∧ isNumberChar c = false

theorem isMark_openBrace : IsMark '\x7b' .openBrace := ⟨fun _ => rfl, rfl, rfl⟩
theorem isMark_closeBrace : IsMark '\x7d' .closeBrace := ⟨fun _ => rfl, rfl, rfl⟩
theorem isMark_openBracket : IsMark '[' .openBracket := ⟨fun _ => rfl, rfl, rfl⟩
theorem isMark_closeBracket : IsMark ']' .closeBracket := ⟨fun _ => rfl, rfl, rfl⟩
theorem isMark_comma : IsMark ',' .comma := ⟨fun _ => rfl, rfl, rfl⟩
theorem isMark_colon : IsMark ':' .colon := ⟨fun _ => rfl, rfl, rfl⟩

section Marks

variable {c : Char} {t : Token}

/-- A mark finishes the token before it. -/
theorem IsMark.step {s : Scanner} {ts : List Token} (mark : IsMark c t)
    (finished : s.finish = some ts) : s.step c = some ⟨.between, t :: ts.reverse⟩ := by
  obtain ⟨mode, tokens⟩ := s
  cases mode with
  | between =>
      obtain rfl := Option.some.inj finished
      rw [List.reverse_reverse]
      exact mark.begins tokens
  | word run =>
      cases token : word? run with
      | none => simp [finish, token] at finished
      | some w =>
          simp only [finish, token] at finished
          obtain rfl := Option.some.inj finished
          simp only [Scanner.step, mark.ends.1, token, List.reverse_reverse]
          exact mark.begins _
  | number run =>
      cases token : number? run with
      | none => simp [finish, token] at finished
      | some n =>
          simp only [finish, token] at finished
          obtain rfl := Option.some.inj finished
          simp only [Scanner.step, mark.ends.2, token, List.reverse_reverse]
          exact mark.begins _
  | text run escaped => cases finished

/-- Text before and after a mark is scanned on its own. -/
theorem scan_append_mark {cs : List Char} {ts : List Token} (mark : IsMark c t)
    (scanned : Token.scan cs = some ts) (ds : List Char) :
    Token.scan (cs ++ c :: ds) = (Token.scan ds).map fun us => ts ++ t :: us := by
  obtain ⟨s, run, finished⟩ := Option.bind_eq_some_iff.1 scanned
  -- what comes after the mark is scanned from the start, with the tokens so far finished before
  have rest := foldlM_following (t :: ts.reverse) ds initial
  have start : following (t :: ts.reverse) initial = ⟨.between, t :: ts.reverse⟩ := rfl
  rw [start] at rest
  rw [Token.scan, List.foldlM_append, run]
  simp only [Option.bind_eq_bind, Option.bind_some, List.foldlM_cons, mark.step finished, rest]
  rw [Token.scan]
  cases ds.foldlM Scanner.step initial with
  | none => rfl
  | some after =>
      refine (finish_following _ after).trans ?_
      simp

theorem scan_mark (mark : IsMark c t) (ds : List Char) :
    Token.scan (c :: ds) = (Token.scan ds).map (t :: ·) :=
  @scan_append_mark c t [] [] mark rfl ds

end Marks

/-! ## Whole numbers -/

section Digits

variable {ds : List Char}

/-- Digits go on with a number that is under way. -/
theorem foldlM_digits (ascii : ∀ d ∈ ds, d.isDigit) (run : List Char) (tokens : List Token) :
    ds.foldlM step ⟨.number run, tokens⟩ = some ⟨.number (ds.reverse ++ run), tokens⟩ := by
  induction ds generalizing run with
  | nil => rfl
  | cons d ds ih =>
      obtain ⟨digit, ascii⟩ := List.forall_mem_cons.1 ascii
      rw [List.foldlM_cons, step]
      simp [isNumberChar, digit, ih ascii]

theorem begin?_digit {d : Char} (digit : d.isDigit) (tokens : List Token) :
    begin? tokens d = some ⟨.number [d], tokens⟩ := by
  unfold begin?
  split <;> first | exact absurd digit (by decide) | simp [digit]

/-- Digits alone are scanned as one number. -/
theorem scan_digits (nonempty : ds ≠ []) (ascii : ∀ d ∈ ds, d.isDigit) :
    Token.scan ds = (Numeral.ofChars? ds).map fun n => [.number n.toNumber] := by
  cases ds with
  | nil => exact absurd rfl nonempty
  | cons d ds =>
      obtain ⟨digit, ascii⟩ := List.forall_mem_cons.1 ascii
      have first : step initial d = some ⟨.number [d], []⟩ := begin?_digit digit []
      have run : (ds.reverse ++ [d]).reverse = d :: ds := by simp
      rw [Token.scan, List.foldlM_cons, first]
      simp only [Option.bind_eq_bind, Option.bind_some, foldlM_digits ascii, finish, number?, run]
      cases Numeral.ofChars? (d :: ds) <;> rfl

theorem ofChars?_digits (nonempty : ds ≠ []) (ascii : ∀ d ∈ ds, d.isDigit)
    (unpadded : ds.head? = some '0' → ds = ['0']) :
    Numeral.ofChars? ds = some ⟨false, ds, [], none⟩ := by
  have all : ds.takeWhile Char.isDigit = ds := List.takeWhile_eq_self_iff.2 ascii
  have rest : ds.dropWhile Char.isDigit = [] := List.dropWhile_eq_nil_iff.2 ascii
  unfold Numeral.ofChars?
  split
  next negative cs sign =>
  have unsigned : negative = false ∧ cs = ds := by
    split at sign
    · exact absurd (ascii '-' List.mem_cons_self) (by decide)
    · cases sign
      exact ⟨rfl, rfl⟩
  obtain ⟨rfl, rfl⟩ := unsigned
  simp only [all, rest]
  cases cs with
  | nil => exact absurd rfl nonempty
  | cons d ds =>
      by_cases zero : d = '0'
      · subst zero
        rw [unpadded rfl]
        rfl
      · simp [zero]

end Digits

/-- A whole number that fits a word is scanned to itself. -/
theorem scan_toString {n : Nat} (fits : n < UInt64.size) :
    Token.scan (toString n).toList = some [.number (.int n)] := by
  have text : (toString n).toList = Nat.toDigits 10 n := by
    rw [Nat.toString_eq_ofList_toDigits, String.toList_ofList]
  have value : Decimal.digitsValue (Nat.toDigits 10 n) = n := Nat.ofDigitChars_ten_toDigits
  have ascii : ∀ d ∈ Nat.toDigits 10 n, d.isDigit := fun _ mem =>
    Nat.isDigit_of_mem_toDigits (by decide) (by decide) mem
  rw [text, scan_digits Nat.toDigits_ne_nil ascii,
    ofChars?_digits Nat.toDigits_ne_nil ascii (Text.plain_toDigits n).unpadded]
  simp [Numeral.toNumber, value, fits]

/-! ## Strings -/

/-- Characters that stand for one character inside a string, and do not end it. -/
structure Escapes (cs : List Char) (c : Char) : Prop where
  reads : ∀ rest, unescape (cs ++ rest) = (unescape rest).map (c.toNat :: ·)
  stays : ∀ run tokens,
    cs.foldlM step ⟨.text run false, tokens⟩ = some ⟨.text (cs.reverse ++ run) false, tokens⟩

/-- A backslash with a letter. -/
theorem escapes_letter {d c : Char}
    (h : (d, c) ∈ [('"', '"'), ('\\', '\\'), ('n', '\n'), ('r', '\r'), ('t', '\t'), ('b', '\x08'),
      ('f', '\x0c')]) : Escapes ['\\', d] c := by
  simp only [List.mem_cons, Prod.mk.injEq, List.not_mem_nil, or_false] at h
  rcases h with h | h | h | h | h | h | h <;> obtain ⟨rfl, rfl⟩ := h <;>
    exact ⟨fun rest => by cases read : unescape rest <;> simp [unescape, read], fun _ _ => rfl⟩

/-- A backslash with a code unit below 256. -/
theorem escapes_unit {d e c : Char} {m n : Nat} (high : hexDigit? d = some m)
    (low : hexDigit? e = some n) (unit : 16 * m + n = c.toNat) :
    Escapes ['\\', 'u', '0', '0', d, e] c where
  reads rest := by
    have zero : hexDigit? '0' = some 0 := rfl
    cases read : unescape rest <;> simp [unescape, read, high, low, zero, unit]
  stays run tokens := by
    have plain {x : Char} {k : Nat} (digit : hexDigit? x = some k) : x ≠ '"' ∧ x ≠ '\\' := by
      constructor <;> rintro rfl <;> cases digit
    simp [step, plain high, plain low]

/-- A character that is not escaped is read as it is. -/
theorem escapes_self {c : Char} (quote : c ≠ '"') (slash : c ≠ '\\') (printed : ¬ c.toNat < 32) :
    Escapes [c] c where
  reads rest := by cases read : unescape rest <;> simp [unescape, slash, printed, read]
  stays run tokens := by simp [step, quote, slash]

/-- The controls have a letter or are printed by their code. -/
theorem escapes_control {c : Char} (control : c.toNat < 32) : Escapes (escaped c).toList c := by
  have table : ∀ n < 32,
      (∃ p ∈ [('n', '\n'), ('r', '\r'), ('t', '\t'), ('b', '\x08'), ('f', '\x0c')],
        (escaped (Char.ofNat n)).toList = ['\\', p.1] ∧ p.2 = Char.ofNat n) ∨
      (escaped (Char.ofNat n)).toList =
          ['\\', 'u', '0', '0', Nat.digitChar (n / 16), Nat.digitChar (n % 16)] ∧
        hexDigit? (Nat.digitChar (n / 16)) = some (n / 16) ∧
        hexDigit? (Nat.digitChar (n % 16)) = some (n % 16) := by
    decide +kernel
  have here := table c.toNat control
  rw [Char.ofNat_toNat] at here
  rcases here with ⟨p, letter, text, rfl⟩ | ⟨text, high, low⟩
  · rw [text]
    exact escapes_letter (List.mem_cons_of_mem _ (List.mem_cons_of_mem _ letter))
  · rw [text]
    exact escapes_unit high low (Nat.div_add_mod _ _)

theorem escapes_escaped (c : Char) : Escapes (escaped c).toList c := by
  by_cases control : c.toNat < 32
  · exact escapes_control control
  · by_cases quote : c = '"'
    · subst quote
      exact escapes_letter (by decide)
    · by_cases slash : c = '\\'
      · subst slash
        exact escapes_letter (by decide)
      · have itself : (escaped c).toList = [c] := by
          unfold escaped
          split <;> first
            | exact absurd rfl quote
            | exact absurd rfl slash
            | exact absurd (by decide) control
            | skip
          rw [if_neg fun low => control (by omega), if_neg control]
          exact String.toList_singleton c
        rw [itself]
        exact escapes_self quote slash control

section Strings

/-- The characters between the quotes. -/
def inner (cs : List Char) : List Char := cs.flatMap fun c => (escaped c).toList

theorem toList_stringText (s : String) :
    (stringText s).toList = '"' :: (inner s.toList ++ ['"']) := by
  simp [stringText, inner, String.toList_join, List.flatMap, Function.comp_def]

theorem foldlM_inner (cs run : List Char) (tokens : List Token) :
    (inner cs).foldlM step ⟨.text run false, tokens⟩ =
      some ⟨.text ((inner cs).reverse ++ run) false, tokens⟩ := by
  induction cs generalizing run with
  | nil => rfl
  | cons c cs ih =>
      rw [inner, List.flatMap_cons, List.foldlM_append, (escapes_escaped c).stays]
      refine (ih _).trans ?_
      rw [List.reverse_append, List.append_assoc]
      rfl

theorem unescape_inner (cs : List Char) : unescape (inner cs) = some (cs.map Char.toNat) := by
  induction cs with
  | nil => rfl
  | cons c cs ih =>
      rw [inner, List.flatMap_cons, (escapes_escaped c).reads, ← inner, ih]
      rfl

/-- No character is a surrogate. -/
theorem not_isSurrogate (c : Char) :
    isHighSurrogate c.toNat = false ∧ isLowSurrogate c.toNat = false := by
  have valid : c.toNat < 0xd800 ∨ 0xdfff < c.toNat ∧ c.toNat < 0x110000 := c.valid
  simp only [isHighSurrogate, isLowSurrogate, Bool.and_eq_false_iff, decide_eq_false_iff_not]
  omega

theorem joinUnits_map_toNat (cs : List Char) : joinUnits (cs.map Char.toNat) = some cs := by
  induction cs with
  | nil => rfl
  | cons c cs ih =>
      obtain ⟨high, low⟩ := not_isSurrogate c
      cases cs with
      | nil => simp [joinUnits, high, low]
      | cons d ds =>
          rw [List.map_cons] at ih
          simp [joinUnits, high, low, ih]

/-- A string that is printed is scanned to itself. -/
theorem scan_stringText (s : String) :
    Token.scan (stringText s).toList = some [.string (some s)] := by
  have token : Scanner.string? (inner s.toList).reverse = some (.string (some s)) := by
    rw [Scanner.string?, List.reverse_reverse, unescape_inner, Option.map_some, joinUnits_map_toNat,
      Option.map_some, String.ofList_toList]
  have first : step initial '"' = some ⟨.text [] false, []⟩ := rfl
  rw [toList_stringText, Token.scan, List.foldlM_cons, first]
  simp only [Option.bind_eq_bind, Option.bind_some, List.foldlM_append, foldlM_inner,
    List.append_nil, List.foldlM_cons, List.foldlM_nil, step]
  simp [token, finish]

end Strings

end QuantumControl.Json
