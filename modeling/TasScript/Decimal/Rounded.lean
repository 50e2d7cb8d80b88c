import TasScript.Decimal.Shortest

/-! A number rounded to a count of significant digits, ties to even. -/

namespace TasScript

def roundDiv (num den : Nat) : Nat :=
  let q := num / den
  let r := num % den
  if 2 * r < den then q else if den < 2 * r then q + 1 else if q % 2 == 0 then q else q + 1

/-- The number `m * 2 ^ e` to `digits` significant digits. -/
def roundedFigures (digits m : Nat) (e : Int) : Figures :=
  let num := m * twoTo e.toNat
  let den := twoTo (-e).toNat
  let place := leadingPlace num den + 1 - digits
  Figures.ofNat (roundDiv (num * tenTo (-place).toNat) (den * tenTo place.toNat)) place

end TasScript
