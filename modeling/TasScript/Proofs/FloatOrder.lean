import Mathlib.Data.Int.Order.Basic
import Mathlib.Data.Prod.Lex
import TasScript.Binary64.Basic

/-! The order of doubles. Every double that is a number has a place, and two doubles compare as
their places do; what is not a number has no place and is neither less nor greater than anything. -/

namespace TasScript

open Float.Model (UnpackedFloat)

/-- Sign and class count first, then the exponent, then the mantissa. -/
abbrev Place : Type := ℤ ×ₗ ℤ ×ₗ ℤ

namespace Place

def mk (rank exponent mantissa : ℤ) : Place := toLex (rank, toLex (exponent, mantissa))

def ofUnpacked? : UnpackedFloat → Option Place
  | .notANumber => none
  | .infinity .negative => some (mk (-2) 0 0)
  | .finite .negative m e _ => some (mk (-1) (-e) (-m))
  | .zero _ => some (mk 0 0 0)
  | .finite .positive m e _ => some (mk 1 e m)
  | .infinity .positive => some (mk 2 0 0)

def ofFloat? (x : Float) : Option Place := ofUnpacked? x.toModel.unpack

theorem mk_lt_mk {r r' e e' m m' : ℤ} :
    mk r e m < mk r' e' m' ↔ r < r' ∨ r = r' ∧ (e < e' ∨ e = e' ∧ m < m') := by
  simp [mk, Prod.Lex.toLex_lt_toLex]

theorem cmp_mk (r e e' m m' : ℤ) :
    cmp (mk r e m) (mk r e' m') = (cmp e e').then (cmp m m') := by
  rcases lt_trichotomy e e' with he | rfl | he
  · have hlt : mk r e m < mk r e' m' := mk_lt_mk.mpr (by omega)
    rw [hlt.cmp_eq_lt, he.cmp_eq_lt]
    rfl
  · rw [cmp_self_eq_eq e]
    rcases lt_trichotomy m m' with hm | rfl | hm
    · have hlt : mk r e m < mk r e m' := mk_lt_mk.mpr (by omega)
      rw [hlt.cmp_eq_lt, hm.cmp_eq_lt]
      rfl
    · rw [cmp_self_eq_eq, cmp_self_eq_eq]
      rfl
    · have hlt : mk r e m' < mk r e m := mk_lt_mk.mpr (by omega)
      rw [hlt.cmp_eq_gt, hm.cmp_eq_gt]
      rfl
  · have hlt : mk r e' m' < mk r e m := mk_lt_mk.mpr (by omega)
    rw [hlt.cmp_eq_gt, he.cmp_eq_gt]
    rfl

theorem compare_positive (e e' : ℤ) (m m' : ℕ) :
    (compare e e').then (compare m m') = cmp (mk 1 e m) (mk 1 e' m') := by
  have hcast : StrictMono fun n : ℕ => (n : ℤ) := fun _ _ h => Int.ofNat_lt.mpr h
  rw [cmp_mk, hcast.cmp_map_eq, cmp_eq_compare, cmp_eq_compare]

theorem compare_negative (e e' : ℤ) (m m' : ℕ) :
    ((compare e e').then (compare m m')).swap =
      cmp (mk (-1) (-e) (-m)) (mk (-1) (-e') (-m')) := by
  have hneg : StrictAnti fun n : ℤ => -n := fun _ _ h => Int.neg_lt_neg h
  have hcast : StrictAnti fun n : ℕ => -(n : ℤ) := fun _ _ h =>
    Int.neg_lt_neg (Int.ofNat_lt.mpr h)
  rw [cmp_mk, hneg.cmp_map_eq, hcast.cmp_map_eq, ← cmp_swap e, ← cmp_swap m, cmp_eq_compare,
    cmp_eq_compare, Ordering.swap_then]

theorem compare_eq (x y : UnpackedFloat) :
    x.compare y = (ofUnpacked? x).bind fun a => (ofUnpacked? y).map (cmp a) := by
  cases x with
  | notANumber => rfl
  | infinity s =>
    cases s <;> cases y with
    | notANumber => rfl
    | infinity t => cases t <;> rfl
    | zero t => rfl
    | finite t m e h => cases t <;> rfl
  | zero s =>
    cases y with
    | notANumber => rfl
    | infinity t => cases t <;> rfl
    | zero t => rfl
    | finite t m e h => cases t <;> rfl
  | finite s m e h =>
    cases y with
    | notANumber => cases s <;> rfl
    | infinity t => cases s <;> cases t <;> rfl
    | zero t => cases s <;> rfl
    | finite t m' e' h' =>
      cases s <;> cases t
      · exact congrArg some (compare_negative e e' m m')
      · rfl
      · rfl
      · exact congrArg some (compare_positive e e' m m')

theorem ofUnpacked?_eq_none {x : UnpackedFloat} : ofUnpacked? x = none ↔ x.isNaN = true := by
  cases x with
  | notANumber => exact ⟨fun _ => rfl, fun _ => rfl⟩
  | infinity s => cases s <;> exact ⟨nofun, nofun⟩
  | zero s => exact ⟨nofun, nofun⟩
  | finite s m e h => cases s <;> exact ⟨nofun, nofun⟩

theorem ofFloat?_eq_none {x : Float} : ofFloat? x = none ↔ x.isNaN = true := ofUnpacked?_eq_none

end Place

theorem lt_iff_compare_unpack (x y : Float) :
    x < y ↔ x.toModel.unpack.compare y.toModel.unpack = some .lt := by
  change x.lt y = true ↔ _
  simp only [Float.lt, decide_eq_true_eq]
  change x.toModel.unpack.lt y.toModel.unpack = true ↔ _
  simp [UnpackedFloat.lt]

theorem le_iff_compare_unpack (x y : Float) :
    x ≤ y ↔ (x.toModel.unpack.compare y.toModel.unpack).any Ordering.isLE = true := by
  change x.le y = true ↔ _
  simp only [Float.le, decide_eq_true_eq]
  rfl

theorem Place.compare_eq_some {x y : Float} {o : Ordering} :
    x.toModel.unpack.compare y.toModel.unpack = some o ↔
      ∃ a b, ofFloat? x = some a ∧ ofFloat? y = some b ∧ cmp a b = o := by
  rw [compare_eq, Option.bind_eq_some_iff]
  constructor
  · rintro ⟨a, ha, h⟩
    obtain ⟨b, hb, rfl⟩ := Option.map_eq_some_iff.mp h
    exact ⟨a, b, ha, hb, rfl⟩
  · rintro ⟨a, b, ha, hb, rfl⟩
    exact ⟨a, ha, Option.map_eq_some_iff.mpr ⟨b, hb, rfl⟩⟩

theorem lt_iff_place {x y : Float} :
    x < y ↔ ∃ a b, Place.ofFloat? x = some a ∧ Place.ofFloat? y = some b ∧ a < b := by
  rw [lt_iff_compare_unpack, Place.compare_eq_some]
  constructor
  · rintro ⟨a, b, ha, hb, hab⟩
    exact ⟨a, b, ha, hb, (cmp_eq_lt_iff a b).mp hab⟩
  · rintro ⟨a, b, ha, hb, hab⟩
    exact ⟨a, b, ha, hb, hab.cmp_eq_lt⟩

theorem le_iff_place {x y : Float} :
    x ≤ y ↔ ∃ a b, Place.ofFloat? x = some a ∧ Place.ofFloat? y = some b ∧ a ≤ b := by
  rw [le_iff_compare_unpack, Option.any_eq_true]
  constructor
  · rintro ⟨o, ho, hle⟩
    obtain ⟨a, b, ha, hb, rfl⟩ := Place.compare_eq_some.mp ho
    refine ⟨a, b, ha, hb, not_lt.mp fun hlt => ?_⟩
    rw [hlt.cmp_eq_gt] at hle
    exact absurd hle Bool.false_ne_true
  · rintro ⟨a, b, ha, hb, hab⟩
    refine ⟨cmp a b, Place.compare_eq_some.mpr ⟨a, b, ha, hb, rfl⟩, ?_⟩
    have hne : cmp a b ≠ .gt := fun h => not_lt.mpr hab ((cmp_eq_gt_iff a b).mp h)
    exact Ordering.isLE_iff_ne_gt.mpr hne

namespace Double

variable {x y z : Float}

theorem lt_of_le_of_lt (hxy : x ≤ y) (hyz : y < z) : x < z := by
  obtain ⟨a, b, ha, hb, hab⟩ := le_iff_place.mp hxy
  obtain ⟨b', c, hb', hc, hbc⟩ := lt_iff_place.mp hyz
  obtain rfl : b = b' := Option.some.inj (hb.symm.trans hb')
  exact lt_iff_place.mpr ⟨a, c, ha, hc, hab.trans_lt hbc⟩

theorem le_of_lt (h : x < y) : x ≤ y := by
  obtain ⟨a, b, ha, hb, hab⟩ := lt_iff_place.mp h
  exact le_iff_place.mpr ⟨a, b, ha, hb, hab.le⟩

theorem le_trans (hxy : x ≤ y) (hyz : y ≤ z) : x ≤ z := by
  obtain ⟨a, b, ha, hb, hab⟩ := le_iff_place.mp hxy
  obtain ⟨b', c, hb', hc, hbc⟩ := le_iff_place.mp hyz
  obtain rfl : b = b' := Option.some.inj (hb.symm.trans hb')
  exact le_iff_place.mpr ⟨a, c, ha, hc, hab.trans hbc⟩

theorem exists_place (hx : x.isNaN = false) : ∃ a, Place.ofFloat? x = some a := by
  cases ha : Place.ofFloat? x with
  | none =>
    have hnan := Place.ofFloat?_eq_none.mp ha
    rw [hx] at hnan
    exact absurd hnan Bool.false_ne_true
  | some a => exact ⟨a, rfl⟩

theorem le_of_not_lt (hx : x.isNaN = false) (hy : y.isNaN = false) (h : ¬ x < y) : y ≤ x := by
  obtain ⟨a, ha⟩ := exists_place hx
  obtain ⟨b, hb⟩ := exists_place hy
  have hab : ¬ a < b := fun hlt => h (lt_iff_place.mpr ⟨a, b, ha, hb, hlt⟩)
  exact le_iff_place.mpr ⟨b, a, hb, ha, not_lt.mp hab⟩

theorem isNaN_of_place {a : Place} (ha : Place.ofFloat? x = some a) : x.isNaN = false := by
  apply Bool.eq_false_iff.mpr
  intro hx
  have hnone := Place.ofFloat?_eq_none.mpr hx
  simp [ha] at hnone

theorem isNaN_of_le (h : x ≤ y) : x.isNaN = false ∧ y.isNaN = false := by
  obtain ⟨a, b, ha, hb, -⟩ := le_iff_place.mp h
  exact ⟨isNaN_of_place ha, isNaN_of_place hb⟩

theorem not_lt_of_isNaN (hy : y.isNaN = true) : ¬ x < y := by
  intro h
  obtain ⟨a, b, ha, hb, -⟩ := lt_iff_place.mp h
  rw [isNaN_of_place hb] at hy
  exact absurd hy Bool.false_ne_true

end Double

end TasScript
