import TasScript.Decimal.Layout
import TasScript.Power

/-! The shortest decimal that reads back as a given double. A double stands for all numbers that
round to it; the answer is the coarsest decimal grid with a point in that interval, and of two such
points the nearer. -/

namespace TasScript

/-- The place of the first digit of `num / den`, for numbers above `10 ^ -330`. -/
def leadingPlace (num den : Nat) : Int :=
  ((Nat.toDigits 10 (num * tenTo 330 / den)).length : Int) - 331

/-- A double as a fraction in quarters of its last place, with the bounds of its interval. -/
structure Interval where
  low : Nat
  value : Nat
  high : Nat
  den : Nat
  closed : Bool

namespace Interval

/-- The gap below a power of two is half as wide, except at the least exponent. -/
def ofDouble (m : Nat) (e : Int) : Interval :=
  let scale := twoTo (e - 2).toNat
  let narrow := m == twoTo 52 && decide (-1074 < e)
  { low := (4 * m - if narrow then 1 else 2) * scale
    value := 4 * m * scale
    high := (4 * m + 2) * scale
    den := twoTo (2 - e).toNat
    closed := m % 2 == 0 }

/-- The same interval in units of `10 ^ place`. -/
def inUnits (i : Interval) (place : Int) : Interval :=
  let up := tenTo (-place).toNat
  { i with
    low := i.low * up, value := i.value * up, high := i.high * up
    den := i.den * tenTo place.toNat }

def holds (i : Interval) (n : Nat) : Bool :=
  if i.closed then decide (i.low ≤ n * i.den) && decide (n * i.den ≤ i.high)
  else decide (i.low < n * i.den) && decide (n * i.den < i.high)

/-- The whole number of the interval next to its value; a tie goes to the even one. -/
def nearest? (i : Interval) : Option Nat :=
  let n := i.value / i.den
  match i.holds n, i.holds (n + 1) with
  | false, false => none
  | true, false => some n
  | false, true => some (n + 1)
  | true, true =>
    if 2 * i.value < (2 * n + 1) * i.den then some n
    else if (2 * n + 1) * i.den < 2 * i.value then some (n + 1)
    else some (if n % 2 == 0 then n else n + 1)

end Interval

/-- The grids are tried from one digit up; the last, of seventeen, always has a hit. -/
def shortestFigures (m : Nat) (e : Int) : Figures :=
  let i := Interval.ofDouble m e
  let leading := leadingPlace i.value i.den
  let hit := (List.range 17).findSome? fun (extra : Nat) =>
    ((i.inUnits (leading - extra)).nearest?).map fun n => Figures.ofNat n (leading - extra)
  hit.getD ⟨[], 0⟩

end TasScript
