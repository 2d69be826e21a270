import Mathlib.Logic.Basic

/-!
# Comparing doubles

A check that refuses what is not above a bound accepts what is above it, and what cannot be
compared.  Only "not a number" cannot be compared, so for all other doubles a comparison
that fails is the opposite one that holds (`not_lt_iff_le`).  A double that stands for a
whole number can be compared: rounding and packing never make it "not a number".
-/

namespace QuantumControl.Decimal

open Float.Model (UnpackedFloat)
open Float.Model.UnpackedFloat (Sign)

/-! ## Doubles that can be compared -/

section Comparing

variable {u v : UnpackedFloat} {x y : Float}

/-- Comparing the other way round gives the opposite. -/
theorem exists_compare_swap (hu : u.isNaN = false) (hv : v.isNaN = false) :
    ∃ o, u.compare v = some o ∧ v.compare u = some o.swap := by
  have magnitudes (m n : Nat) (e f : Int) :
      (compare f e).then (compare n m) = ((compare e f).then (compare m n)).swap := by
    rw [Ordering.swap_then, ← Std.OrientedOrd.eq_swap, ← Std.OrientedOrd.eq_swap]
  -- one case for each form and sign of either side; only two finite ones of one sign look further
  rcases u with (_ | _) | _ | _ | ⟨_ | _, m, e, _⟩ <;> cases hu <;>
    rcases v with (_ | _) | _ | _ | ⟨_ | _, n, f, _⟩ <;> cases hv <;>
    first
      | exact ⟨_, rfl, rfl⟩
      | exact ⟨_, rfl, congrArg some (magnitudes m n e f)⟩
      | exact ⟨_, rfl, congrArg (fun o => some (Ordering.swap o)) (magnitudes m n e f)⟩

theorem lt_iff : x < y ↔ x.toModel.unpack.compare y.toModel.unpack = some .lt := by
  refine decide_eq_true_iff.trans ?_
  exact beq_iff_eq

theorem le_iff : x ≤ y ↔ (x.toModel.unpack.compare y.toModel.unpack).any (·.isLE) = true :=
  decide_eq_true_iff

theorem not_lt_iff_le (hx : x.isNaN = false) (hy : y.isNaN = false) : ¬ x < y ↔ y ≤ x := by
  obtain ⟨o, there, back⟩ := exists_compare_swap hx hy
  rw [lt_iff, le_iff, there, back]
  cases o <;> decide

theorem not_le_iff_lt (hx : x.isNaN = false) (hy : y.isNaN = false) : ¬ x ≤ y ↔ y < x := by
  rw [← not_lt_iff_le hy hx, not_not]

theorem isNaN_of_isFinite (h : x.isFinite) : x.isNaN = false := by
  change x.toModel.unpack.isFinite = true at h
  show x.toModel.unpack.isNaN = false
  cases unpacked : x.toModel.unpack <;> rw [unpacked] at h <;> first | rfl | cases h

end Comparing

/-! ## Whole numbers -/

/-- A choice between doubles is "not a number" only if one of them is. -/
theorem isNaN_dite {c : Prop} [Decidable c] {a : c → UnpackedFloat} {b : ¬ c → UnpackedFloat}
    (ha : ∀ h, (a h).isNaN = false) (hb : ∀ h, (b h).isNaN = false) :
    (dite c a b).isNaN = false := by
  by_cases h : c
  · rw [dif_pos h, ha]
  · rw [dif_neg h, hb]

/-- Bits are "not a number" only with all exponent bits set and some mantissa bit. -/
theorem isNaN_unpack {spec : Float.Model.Format} {bits : BitVec spec.numBits}
    (h : UnpackedFloat.unpackExponent bits ≠ -1#_ ∨ UnpackedFloat.unpackMantissa bits = 0#_) :
    (UnpackedFloat.unpack spec bits).isNaN = false := by
  by_cases ones : UnpackedFloat.unpackExponent bits = -1#_
  · refine (congrArg UnpackedFloat.isNaN (if_pos ones)).trans ?_
    exact congrArg UnpackedFloat.isNaN (if_pos (h.resolve_left (not_not.2 ones)))
  · refine (congrArg UnpackedFloat.isNaN (if_neg ones)).trans ?_
    by_cases least : UnpackedFloat.unpackExponent bits = 0#_
    · refine (congrArg UnpackedFloat.isNaN (if_pos least)).trans ?_
      exact isNaN_dite (fun _ => rfl) fun _ => rfl
    · exact congrArg UnpackedFloat.isNaN (if_neg least)

theorem isNaN_unpack_packComponents {spec : Float.Model.Format} {s : Sign}
    {exponent : BitVec spec.exponentBits} {mantissa : BitVec spec.mantissaBitsWithoutImplicit}
    (h : exponent ≠ -1#_ ∨ mantissa = 0#_) :
    (UnpackedFloat.unpack spec (UnpackedFloat.packComponents spec s exponent mantissa)).isNaN =
      false :=
  isNaN_unpack (by rwa [UnpackedFloat.unpackExponent_packComponents,
    UnpackedFloat.unpackMantissa_packComponents])

/-- What is packed is "not a number" only if it was before: the exponent bits of a finite number are
never all set. -/
theorem isNaN_unpack_pack {spec : Float.Model.Format} {u : UnpackedFloat} (h : u.isNaN = false) :
    (UnpackedFloat.unpack spec (UnpackedFloat.pack spec u)).isNaN = false := by
  have largest : (-1#_ : BitVec spec.exponentBits).toNat = 2 ^ spec.exponentBits - 1 := by
    rw [BitVec.neg_one_eq_allOnes, BitVec.toNat_allOnes]
  have two : 2 ≤ 2 ^ spec.exponentBits := Nat.pow_le_pow_right Nat.two_pos spec.he
  cases u with
  | notANumber => cases h
  | infinity s => exact isNaN_unpack_packComponents (.inr rfl)
  | zero s => exact isNaN_unpack_packComponents (.inr rfl)
  | finite s m e pos =>
      show (UnpackedFloat.unpack spec (if _ then _ else if _ then _ else _)).isNaN = false
      split
      · exact isNaN_unpack_packComponents (.inr rfl)
      · next below =>
          split
          · refine isNaN_unpack_packComponents (.inl fun ones => ?_)
            have exponent := congrArg BitVec.toNat ones
            rw [BitVec.toNat_ofNat, Nat.mod_eq_of_lt (by omega), largest] at exponent
            omega
          · refine isNaN_unpack_packComponents (.inl fun ones => ?_)
            have exponent := congrArg BitVec.toNat ones
            rw [BitVec.toNat_zero, largest] at exponent
            omega

theorem isNaN_normalize (spec : Float.Model.Format) (mantissa exponent : Int) (zeroSign : Sign) :
    (UnpackedFloat.normalize spec mantissa exponent zeroSign).isNaN = false := by
  have rounded (s : Sign) (m : Nat) (e : Int) : (UnpackedFloat.round spec s m e).isNaN = false :=
    isNaN_dite (a := fun _ => .zero s) (b := fun h => .finite s _ _ (Nat.pos_of_ne_zero h))
      (fun _ => rfl) fun _ => rfl
  unfold UnpackedFloat.normalize
  split
  · exact rounded _ _ _
  · rfl
  · exact rounded _ _ _

theorem isNaN_toFloat (n : UInt32) : n.toFloat.isNaN = false :=
  isNaN_unpack_pack (isNaN_normalize _ _ _ _)

end QuantumControl.Decimal
