import TasScript.Binary64.Basic

/-! The length of a vector of doubles: the root of the exact sum of the squares, rounded once. -/

namespace TasScript

/-- Two numbers `a * 2 ^ i` and `b * 2 ^ j` added exactly. -/
def addExact (a : Nat) (i : Int) (b : Nat) (j : Int) : Nat × Int :=
  let low := min i j
  (a * twoTo (i - low).toNat + b * twoTo (j - low).toNat, low)

def sumSquares : List Float → Nat × Int
  | [] => (0, 0)
  | x :: xs =>
    match Binary64.ofFloat x with
    | .finite _ m e => let (a, i) := sumSquares xs; addExact (m * m) (2 * e) a i
    | _ => sumSquares xs

/-- An infinite component outweighs one that is not a number. -/
def vectorLength (xs : List Float) : Float :=
  if xs.any Float.isInf then (Binary64.infinite false).toFloat
  else if xs.any Float.isNaN then (Binary64.undefined).toFloat
  else
    let (m, e) := sumSquares xs
    .ofModel (.pack (.sqrt .binary64 (Binary64.finite false m e).toUnpacked))

end TasScript
