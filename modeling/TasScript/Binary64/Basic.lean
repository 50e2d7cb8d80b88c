import TasScript.Power

/-! Doubles seen as exact numbers `mantissa * 2 ^ exponent`, and the rounding of such numbers back
to doubles. -/

namespace TasScript

open Float.Model (Format UnpackedFloat)

inductive Binary64 where
  | undefined
  | infinite (negative : Bool)
  | finite (negative : Bool) (mantissa : Nat) (exponent : Int)
  deriving Repr, DecidableEq

namespace Binary64

def signOf (negative : Bool) : UnpackedFloat.Sign :=
  if negative then .negative else .positive

def isNegative : UnpackedFloat.Sign → Bool
  | .negative => true
  | .positive => false

/-- A zero is the finite number with mantissa zero. -/
def ofUnpacked : UnpackedFloat → Binary64
  | .notANumber => .undefined
  | .infinity s => .infinite (isNegative s)
  | .zero s => .finite (isNegative s) 0 0
  | .finite s m e _ => .finite (isNegative s) m e

def ofFloat (x : Float) : Binary64 := ofUnpacked x.toModel.unpack

/-- A number before it is rounded. -/
def toUnpacked : Binary64 → UnpackedFloat
  | .undefined => .notANumber
  | .infinite negative => .infinity (signOf negative)
  | .finite negative 0 _ => .zero (signOf negative)
  | .finite negative (m + 1) e => .finite (signOf negative) (m + 1) e (Nat.succ_pos m)

def roundUnpacked : UnpackedFloat → UnpackedFloat
  | .finite s m e _ => .round .binary64 s m e
  | x => x

/-- The nearest double, ties to even. -/
def toFloat (x : Binary64) : Float := .ofModel (.pack (roundUnpacked x.toUnpacked))

end Binary64

/-- The value rounded toward zero; none for what is not finite. -/
def truncated? (x : Float) : Option Int :=
  match Binary64.ofFloat x with
  | .finite negative m e =>
    let n := if 0 ≤ e then m * twoTo e.toNat else m / twoTo (-e).toNat
    some (if negative then -(n : Int) else n)
  | _ => none

/-- Whether a double is finite and has no fractional part. -/
def isWhole (x : Float) : Bool :=
  match Binary64.ofFloat x with
  | .finite _ m e => decide (0 ≤ e) || m % twoTo (-e).toNat == 0
  | _ => false

/-- The double nearest to an integer; one beyond all doubles has none. -/
def realOfInteger? (n : Int) : Option Float :=
  if (Float.ofInt n).isInf then none else some (Float.ofInt n)

theorem truncated?_isSome_of_isWhole {x : Float} (h : isWhole x = true) :
    (truncated? x).isSome = true := by
  unfold isWhole at h
  unfold truncated?
  split at h <;> simp_all

end TasScript
