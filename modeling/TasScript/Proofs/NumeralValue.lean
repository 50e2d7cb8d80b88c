import TasScript.Decimal.Numeral
import TasScript.Proofs.FloatOrder

/-! Numerals always stand for a number, if only for an infinite one. Neither rounding nor packing
makes anything else of what is a number. -/

namespace TasScript

open Float.Model (Format UnpackedFloat)
open Float.Model.UnpackedFloat

namespace Double

theorem isNaN_dite {p : Prop} [Decidable p] {u : p → UnpackedFloat} {v : ¬ p → UnpackedFloat}
    (hu : ∀ h, (u h).isNaN = false) (hv : ∀ h, (v h).isNaN = false) :
    (dite p u v).isNaN = false := by
  by_cases h : p
  · rw [dif_pos h]
    exact hu h
  · rw [dif_neg h]
    exact hv h

theorem isNaN_ite {p : Prop} [Decidable p] {u v : UnpackedFloat} (hu : u.isNaN = false)
    (hv : v.isNaN = false) : (ite p u v).isNaN = false :=
  isNaN_dite (fun _ => hu) (fun _ => hv)

theorem isNaN_unpack_packComponents (s : Sign) (e : BitVec 11) (m : BitVec 52) (he : e ≠ -1#11) :
    (unpack .binary64 (packComponents .binary64 s e m)).isNaN = false := by
  have hexp := he
  rw [← @unpackExponent_packComponents .binary64 s e m] at hexp
  unfold unpack
  dsimp only
  rw [if_neg hexp]
  exact isNaN_ite (isNaN_dite (fun _ => rfl) (fun _ => rfl)) rfl

theorem ofNat_ne_ones {b : Nat} (h : ¬ 2048 ≤ b + 1) : BitVec.ofNat 11 b ≠ -1#11 := by
  intro heq
  have hval := congrArg BitVec.toNat heq
  have hones : (-1#11).toNat = 2047 := rfl
  rw [BitVec.toNat_ofNat, Nat.mod_eq_of_lt (by omega), hones] at hval
  omega

theorem isNaN_unpack_pack {u : UnpackedFloat} (hu : u.isNaN = false) :
    (unpack .binary64 (pack .binary64 u)).isNaN = false := by
  cases u with
  | notANumber => exact absurd hu (by decide)
  | infinity s => cases s <;> decide
  | zero s => cases s <;> decide
  | finite s m e h =>
    unfold pack
    dsimp only
    split
    · cases s <;> decide
    · rename_i hfits
      split
      · exact isNaN_unpack_packComponents _ _ _ (ofNat_ne_ones hfits)
      · exact isNaN_unpack_packComponents _ _ _ (by decide)

theorem isNaN_pack {u : UnpackedFloat} (hu : u.isNaN = false) :
    (Float.ofModel (.pack u)).isNaN = false :=
  isNaN_unpack_pack hu

theorem isNaN_neg {x : Float} (hx : x.isNaN = false) : (-x).isNaN = false := by
  have hneg : ∀ u : UnpackedFloat, u.isNaN = false → u.neg.isNaN = false := by
    intro u hu
    cases u with
    | notANumber => exact hu
    | infinity s => rfl
    | zero s => rfl
    | finite s m e h => rfl
  exact isNaN_pack (hneg _ hx)

theorem isNaN_roundWithAccuracy (s : Sign) (m : Nat) (e : Int) (a : Accuracy) :
    (roundWithAccuracy .binary64 s m e a).isNaN = false := by
  unfold roundWithAccuracy
  exact isNaN_dite (fun _ => rfl) (fun _ => rfl)

/-- Whether a double is neither zero nor infinite, so that anything may be divided by it. -/
def isDivisor : UnpackedFloat → Bool
  | .finite .. => true
  | _ => false

theorem isNaN_div {u v : UnpackedFloat} (hu : u.isNaN = false) (hv : isDivisor v = true) :
    (div .binary64 u v).isNaN = false := by
  cases v with
  | notANumber => exact absurd hv (by decide)
  | infinity t => exact absurd hv Bool.false_ne_true
  | zero t => exact absurd hv Bool.false_ne_true
  | finite t n f k =>
    cases u with
    | notANumber => exact absurd hu (by decide)
    | infinity s => rfl
    | zero s => rfl
    | finite s m e h => exact isNaN_roundWithAccuracy _ _ _ _

theorem isDivisor_powersOfTen : ∀ e : Fin Float.exactlyRepresentablePowersOfTen.size,
    isDivisor (Float.exactlyRepresentablePowersOfTen[e].toModel.unpack) = true := by
  decide +kernel

theorem isNaN_ofInt (n : Int) : (ofInt .binary64 n).isNaN = false := by
  unfold ofInt UnpackedFloat.normalize
  split
  · exact isNaN_roundWithAccuracy _ _ _ _
  · rfl
  · exact isNaN_roundWithAccuracy _ _ _ _

theorem isNaN_unpackedOfScientific (m : Nat) (e : Int) :
    (UnpackedFloat.ofScientific .binary64 m e).isNaN = false := by
  unfold UnpackedFloat.ofScientific
  apply isNaN_dite
  · exact fun _ => rfl
  · intro hm
    apply isNaN_ite rfl
    apply isNaN_ite rfl
    apply isNaN_ite
    · exact isNaN_roundWithAccuracy _ _ _ _
    · exact isNaN_roundWithAccuracy _ _ _ _

theorem isNaN_ofScientific (m e : Nat) : (Float.ofScientific m true e).isNaN = false := by
  unfold Float.ofScientific
  split
  · rename_i hfast
    have hsize : e < Float.exactlyRepresentablePowersOfTen.size := Nat.lt_succ_of_le hfast.2
    have hten := isDivisor_powersOfTen ⟨e, hsize⟩
    have hdividend : (m.toUInt64.toFloat).toModel.unpack.isNaN = false :=
      isNaN_unpack_pack (isNaN_ofInt _)
    exact isNaN_pack (isNaN_div hdividend hten)
  · exact isNaN_pack (isNaN_unpackedOfScientific m _)

end Double

theorem Numeral.isNaN_value (n : Numeral) : n.value.isNaN = false := by
  unfold value
  dsimp only
  split
  · exact Double.isNaN_neg (Double.isNaN_ofScientific _ _)
  · exact Double.isNaN_ofScientific _ _

theorem isNaN_of_splitNumber? {text suffix : String} {x : Float}
    (h : splitNumber? text = some (x, suffix)) : x.isNaN = false := by
  obtain ⟨⟨n, rest⟩, -, hx⟩ := Option.map_eq_some_iff.mp h
  obtain ⟨rfl, -⟩ := Prod.mk.inj hx
  exact n.isNaN_value

end TasScript
