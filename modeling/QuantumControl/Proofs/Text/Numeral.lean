import Mathlib.Data.List.Basic
import QuantumControl.Text.Numeral

/-!
# The texts that spell a number

A reader of bounded whole numbers goes from digit to digit and stops as soon as the number is
out of bounds.  Reading on never makes a number smaller, so it stops early only for texts
whose number is out of bounds in the end: what it accepts is said without it, by the digits
of the text and the number that they write (`numeral_eq_ok_iff`).

A number has many spellings, and one of them is plain: without a sign, and without zeros in
front that could be left out.  It is the one that is printed (`spells_plain_iff`).
-/

namespace QuantumControl.Text

open Decimal (digitsValue)

/-! ## Spellings -/

/-- A number is spelled by one or more ASCII digits after at most one plus sign. -/
def Spells (n : Nat) (cs : List Char) : Prop :=
  ∃ sign digits, cs = sign ++ digits ∧ (sign = [] ∨ sign = ['+']) ∧
    digits ≠ [] ∧ (∀ c ∈ digits, c.isDigit) ∧ digitsValue digits = n

/-- Without a sign, and without a zero in front of other digits. -/
structure Plain (cs : List Char) : Prop where
  unsigned : '+' ∉ cs
  unpadded : cs.head? = some '0' → cs = ['0']

section Spelling

variable {n : Nat} {c : Char} {cs : List Char}

theorem spells_cons_plus_iff :
    Spells n ('+' :: cs) ↔ cs ≠ [] ∧ (∀ c ∈ cs, c.isDigit) ∧ digitsValue cs = n := by
  constructor
  · rintro ⟨sign, digits, whole, rfl | rfl, nonempty, ascii, value⟩
    · rw [List.nil_append] at whole
      exact absurd (ascii '+' (whole ▸ List.mem_cons_self)) (by decide)
    · obtain rfl : cs = digits := (List.cons.inj whole).2
      exact ⟨nonempty, ascii, value⟩
  · exact fun digits => ⟨['+'], cs, rfl, .inr rfl, digits⟩

theorem spells_iff_of_ne (h : cs.head? ≠ some '+') :
    Spells n cs ↔ cs ≠ [] ∧ (∀ c ∈ cs, c.isDigit) ∧ digitsValue cs = n := by
  constructor
  · rintro ⟨sign, digits, rfl, rfl | rfl, spelled⟩
    · exact spelled
    · exact absurd rfl h
  · exact fun digits => ⟨[], cs, rfl, .inl rfl, digits⟩

/-- A text spells one number at most. -/
theorem Spells.unique {m : Nat} (hm : Spells m cs) (hn : Spells n cs) : m = n := by
  by_cases signed : cs.head? = some '+'
  · obtain ⟨rest, rfl⟩ := List.head?_eq_some_iff.1 signed
    exact (spells_cons_plus_iff.1 hm).2.2.symm.trans (spells_cons_plus_iff.1 hn).2.2
  · exact ((spells_iff_of_ne signed).1 hm).2.2.symm.trans ((spells_iff_of_ne signed).1 hn).2.2

end Spelling

/-! ## Reading -/

/-- Further digits never make a number smaller. -/
theorem le_ofDigitChars (cs : List Char) (value : Nat) : value ≤ Nat.ofDigitChars 10 cs value := by
  rw [Nat.ofDigitChars_eq_ofDigitChars_zero]
  exact Nat.le_trans (Nat.le_mul_of_pos_left value (Nat.pow_pos (by decide)))
    (Nat.le_add_right _ _)

theorem numeralFrom_eq_ok_iff {limit value n : Nat} {cs : List Char} (bounded : value ≤ limit) :
    numeralFrom limit value cs = .ok n ↔
      (∀ c ∈ cs, c.isDigit) ∧ Nat.ofDigitChars 10 cs value = n ∧ n ≤ limit := by
  induction cs generalizing value with
  | nil =>
      rw [numeralFrom, Nat.ofDigitChars_nil, Except.ok.injEq]
      refine ⟨fun same => ⟨by simp, same, same ▸ bounded⟩, fun h => h.2.1⟩
  | cons c cs ih =>
      rw [numeralFrom, Nat.ofDigitChars_cons, List.forall_mem_cons]
      by_cases digit : c.isDigit
      · rw [if_pos digit, and_iff_right digit]
        by_cases above : limit < 10 * value + (c.toNat - '0'.toNat)
        · simp only [if_pos above]
          refine ⟨nofun, ?_⟩
          rintro ⟨-, rfl, inside⟩
          exact absurd (Nat.le_trans (le_ofDigitChars cs _) inside) (Nat.not_le.2 above)
        · simp only [if_neg above]
          exact ih (Nat.not_lt.1 above)
      · rw [if_neg digit]
        exact ⟨nofun, fun h => absurd h.1.1 digit⟩

theorem numeralFrom_zero_eq_ok_iff {limit n : Nat} {cs : List Char} :
    numeralFrom limit 0 cs = .ok n ↔
      ((∀ c ∈ cs, c.isDigit) ∧ digitsValue cs = n) ∧ n ≤ limit := by
  rw [numeralFrom_eq_ok_iff (Nat.zero_le limit), and_assoc]
  rfl

/-- The reader accepts the spellings of the numbers within bounds. -/
theorem numeral_eq_ok_iff {limit n : Nat} {cs : List Char} :
    numeral limit cs = .ok n ↔ Spells n cs ∧ n ≤ limit := by
  unfold numeral
  split
  · rw [spells_iff_of_ne (by simp)]
    exact ⟨nofun, fun h => absurd rfl h.1.1⟩
  · rw [spells_cons_plus_iff]
    exact ⟨nofun, fun h => absurd rfl h.1.1⟩
  · rw [spells_iff_of_ne (by decide)]
    exact ⟨nofun, fun h => absurd (h.1.2.1 '-' List.mem_cons_self) (by decide)⟩
  · next digits lone =>
      rw [numeralFrom_zero_eq_ok_iff, spells_cons_plus_iff, and_iff_right (mt _ lone)]
      rintro rfl
      rfl
  · next nonempty _ _ signed =>
      have unsigned : cs.head? ≠ some '+' := fun first => by
        obtain ⟨rest, rfl⟩ := List.head?_eq_some_iff.1 first
        exact signed rest rfl
      rw [numeralFrom_zero_eq_ok_iff, spells_iff_of_ne unsigned, and_iff_right nonempty]

/-- A word is read from its spellings. -/
theorem word32_eq_ok_iff {cs : List Char} {w : UInt32} :
    word32 cs = .ok w ↔ Spells w.toNat cs := by
  rw [word32]
  cases read : numeral (UInt32.size - 1) cs with
  | ok n =>
      obtain ⟨spelled, bounded⟩ := numeral_eq_ok_iff.1 read
      have size : n.toUInt32.toNat = n :=
        Nat.mod_eq_of_lt (Nat.lt_of_le_of_lt bounded (by decide))
      constructor
      · rintro ⟨⟩
        rwa [size]
      · intro h
        rw [Except.map, Except.ok.injEq, ← UInt32.toNat_inj, size]
        exact spelled.unique h
  | error fault =>
      refine ⟨nofun, fun h => ?_⟩
      have bounded : w.toNat ≤ UInt32.size - 1 := Nat.le_sub_one_of_lt w.toNat_lt
      rw [numeral_eq_ok_iff.2 ⟨h, bounded⟩] at read
      cases read

/-! ## Printing -/

theorem spells_toDigits (n : Nat) : Spells n (Nat.toDigits 10 n) :=
  ⟨[], _, rfl, .inl rfl, Nat.toDigits_ne_nil,
    fun _ mem => Nat.isDigit_of_mem_toDigits (by decide) (by decide) mem,
    Nat.ofDigitChars_ten_toDigits⟩

/-- A positive number is not printed with a zero in front. -/
theorem head?_toDigits_ne_zero {n : Nat} (pos : 0 < n) :
    (Nat.toDigits 10 n).head? ≠ some '0' := by
  induction n using Nat.strongRecOn with
  | ind n ih =>
      rw [Nat.toDigits_eq_if (by decide)]
      split
      · next small =>
          have digit : ∀ d < 10, 0 < d → [Nat.digitChar d].head? ≠ some '0' := by decide
          exact digit n small pos
      · next large =>
          rw [List.head?_append_of_ne_nil _ Nat.toDigits_ne_nil]
          exact ih (n / 10) (by omega) (by omega)

theorem plain_toDigits (n : Nat) : Plain (Nat.toDigits 10 n) where
  unsigned mem := absurd (Nat.isDigit_of_mem_toDigits (by decide) (by decide) mem) (by decide)
  unpadded zero := by
    rcases Nat.eq_zero_or_pos n with rfl | pos
    · exact Nat.toDigits_zero 10
    · exact absurd zero (head?_toDigits_ne_zero pos)

/-- A digit's value has the digit as its only one. -/
theorem toDigits_of_isDigit {c : Char} (digit : c.isDigit) :
    c.toNat - '0'.toNat < 10 ∧ Nat.toDigits 10 (c.toNat - '0'.toNat) = [c] := by
  have bounds : 48 ≤ c.toNat ∧ c.toNat ≤ 57 := by
    simpa [Char.isDigit, UInt32.le_iff_toNat_le] using digit
  have small : c.toNat - '0'.toNat < 10 := by
    show c.toNat - 48 < 10
    omega
  refine ⟨small, ?_⟩
  rw [Nat.toDigits_of_lt_base small]
  refine congrArg (· :: []) (Char.toNat_inj.1 ?_)
  rw [Nat.toNat_digitChar_of_lt_ten small]
  show 48 + (c.toNat - 48) = c.toNat
  omega

/-- Digits read onto a positive number are the digits that come after its own. -/
theorem toDigits_ofDigitChars {cs : List Char} (ascii : ∀ c ∈ cs, c.isDigit) {value : Nat}
    (pos : 0 < value) :
    Nat.toDigits 10 (Nat.ofDigitChars 10 cs value) = Nat.toDigits 10 value ++ cs := by
  induction cs generalizing value with
  | nil => rw [Nat.ofDigitChars_nil, List.append_nil]
  | cons c cs ih =>
      obtain ⟨digit, ascii⟩ := List.forall_mem_cons.1 ascii
      obtain ⟨small, here⟩ := toDigits_of_isDigit digit
      rw [Nat.ofDigitChars_cons, ih ascii (by omega),
        ← Nat.toDigits_append_toDigits (by decide) pos small, here, List.append_assoc,
        List.singleton_append]

/-- Digits without a zero that could be left out are those of the number that they write. -/
theorem toDigits_digitsValue {digits : List Char} (nonempty : digits ≠ [])
    (ascii : ∀ c ∈ digits, c.isDigit) (unpadded : digits.head? = some '0' → digits = ['0']) :
    Nat.toDigits 10 (digitsValue digits) = digits := by
  cases digits with
  | nil => exact absurd rfl nonempty
  | cons c cs =>
      obtain ⟨digit, ascii⟩ := List.forall_mem_cons.1 ascii
      obtain ⟨-, here⟩ := toDigits_of_isDigit digit
      by_cases zero : c = '0'
      · subst zero
        rw [unpadded rfl]
        rfl
      · have pos : 0 < c.toNat - '0'.toNat := by
          refine Nat.pos_of_ne_zero fun none => zero ?_
          rw [none, Nat.toDigits_zero] at here
          exact (List.singleton_inj.1 here).symm
        have value : digitsValue (c :: cs) = Nat.ofDigitChars 10 cs (c.toNat - '0'.toNat) := by
          rw [← Nat.zero_add (c.toNat - '0'.toNat)]
          rfl
        rw [value, toDigits_ofDigitChars ascii pos, here, List.singleton_append]

/-- The plain spelling of a number is the one that is printed. -/
theorem spells_plain_iff {n : Nat} {cs : List Char} :
    Spells n cs ∧ Plain cs ↔ cs = Nat.toDigits 10 n := by
  constructor
  · rintro ⟨⟨sign, digits, rfl, rfl | rfl, nonempty, ascii, rfl⟩, plain⟩
    · exact (toDigits_digitsValue nonempty ascii plain.unpadded).symm
    · exact absurd List.mem_cons_self plain.unsigned
  · rintro rfl
    exact ⟨spells_toDigits n, plain_toDigits n⟩

end QuantumControl.Text
