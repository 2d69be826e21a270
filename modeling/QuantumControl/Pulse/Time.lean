/-! # Times

Instants are whole samples in the signed 64-bit range. Arithmetic that could leave the range is
either checked or stops at the end of the range; it never wraps. -/

namespace QuantumControl.Pulse

/-- An instant, counted in samples. -/
structure Time where
  val : Int
  lower : -9223372036854775808 ≤ val
  upper : val < 9223372036854775808
deriving DecidableEq

namespace Time

@[ext] theorem ext {s t : Time} (h : s.val = t.val) : s = t := by
  cases s; cases t; cases h; rfl

instance : Coe Time Int := ⟨val⟩

def zero : Time := ⟨0, by decide, by decide⟩

instance : Inhabited Time := ⟨zero⟩

/-- The instant with the given count, if it is in range. -/
def ofInt? (n : Int) : Option Time :=
  if h : -9223372036854775808 ≤ n ∧ n < 9223372036854775808 then some ⟨n, h.1, h.2⟩ else none

/-- The instant in range that is nearest to the given count. -/
def clamp (n : Int) : Time :=
  if low : n < -9223372036854775808 then ⟨-9223372036854775808, by decide, by decide⟩
  else if high : 9223372036854775808 ≤ n then ⟨9223372036854775807, by decide, by decide⟩
  else ⟨n, by omega, by omega⟩

@[simp] theorem val_zero : zero.val = 0 := rfl

theorem ofInt?_eq_some_iff {n : Int} {t : Time} : ofInt? n = some t ↔ t.val = n := by
  unfold ofInt?
  split
  · next h =>
      constructor
      · intro e; cases e; rfl
      · intro e; exact congrArg some (Time.ext e.symm)
  · next h =>
      constructor
      · intro e; cases e
      · intro e; exact absurd ⟨e ▸ t.lower, e ▸ t.upper⟩ h

theorem ofInt?_eq_none_iff {n : Int} :
    ofInt? n = none ↔ n < -9223372036854775808 ∨ 9223372036854775808 ≤ n := by
  unfold ofInt?
  split
  · next h => simp; omega
  · next h => simp; omega

theorem clamp_val_of_range {n : Int} (low : -9223372036854775808 ≤ n)
    (high : n < 9223372036854775808) : (clamp n).val = n := by
  unfold clamp
  rw [dif_neg (by omega), dif_neg (by omega)]

@[simp] theorem clamp_val (t : Time) : clamp t.val = t :=
  Time.ext (clamp_val_of_range t.lower t.upper)

/-- The sum, if it is in range. -/
def add? (s t : Time) : Option Time := ofInt? (s.val + t.val)

/-- The sum, or the end of the range that it passes. -/
def addClamped (s t : Time) : Time := clamp (s.val + t.val)

/-- The instant a number of samples later, or the last instant. -/
def later (t : Time) (samples : UInt32) : Time := clamp (t.val + samples.toNat)

/-- Whether the instant a number of samples later is in range. -/
def reaches (t : Time) (samples : UInt32) : Bool := (ofInt? (t.val + samples.toNat)).isSome

theorem add?_eq_some_iff {s t u : Time} : s.add? t = some u ↔ u.val = s.val + t.val :=
  ofInt?_eq_some_iff

theorem add?_eq_none_iff {s t : Time} :
    s.add? t = none ↔ s.val + t.val < -9223372036854775808 ∨ 9223372036854775808 ≤ s.val + t.val :=
  ofInt?_eq_none_iff

theorem addClamped_of_add? {s t u : Time} (h : s.add? t = some u) : s.addClamped t = u := by
  rw [addClamped, ← add?_eq_some_iff.1 h, clamp_val]

theorem reaches_iff {t : Time} {samples : UInt32} :
    t.reaches samples ↔ t.val + samples.toNat < 9223372036854775808 := by
  have := t.lower
  rw [reaches, Option.isSome_iff_ne_none, ne_eq, ofInt?_eq_none_iff]
  omega

theorem later_val {t : Time} {samples : UInt32} (h : t.reaches samples) :
    (t.later samples).val = t.val + samples.toNat := by
  have := t.lower
  exact clamp_val_of_range (by omega) (reaches_iff.1 h)

def max (s t : Time) : Time := if s.val < t.val then t else s

instance : LT Time := ⟨fun s t => s.val < t.val⟩
instance : LE Time := ⟨fun s t => s.val ≤ t.val⟩
instance (s t : Time) : Decidable (s < t) := inferInstanceAs (Decidable (s.val < t.val))
instance (s t : Time) : Decidable (s ≤ t) := inferInstanceAs (Decidable (s.val ≤ t.val))

theorem lt_iff_val {s t : Time} : s < t ↔ s.val < t.val := Iff.rfl

instance : ToString Time := ⟨fun t => toString t.val⟩

/-- The latest instant of a list. -/
def latest? : List Time → Option Time
  | [] => none
  | t :: ts => some (ts.foldl max t)

end Time

/-- A whole number of samples as an instant after zero. -/
def Time.ofSamples (samples : UInt32) : Time :=
  ⟨samples.toNat, by omega, by have := samples.toNat_lt; omega⟩

end QuantumControl.Pulse
