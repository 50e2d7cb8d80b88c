import TasScript.Binary64.Basic

/-! The remainder of a double by a positive whole number, with the sign of the divisor. -/

namespace TasScript

/-- `mantissa * 2 ^ exponent` less the largest multiple of `n` that it holds. -/
def exactRemainder (m : Nat) (e : Int) (n : Nat) : Nat × Int :=
  if 0 ≤ e then (m * twoTo e.toNat % n, 0) else (m % (n * twoTo (-e).toNat), e)

/-- The remainder is exact before the divisor is added to a negative one. -/
def remainder (x : Float) (n : Nat) : Float :=
  match Binary64.ofFloat x with
  | .finite negative m e =>
    let (r, e') := exactRemainder m e n
    if r = 0 then 0
    else if negative then (Binary64.finite true r e').toFloat + Float.ofNat n
    else (Binary64.finite false r e').toFloat
  | _ => (Binary64.undefined).toFloat

end TasScript
