/-! The written form of a decimal number given by its digits and the place of the first one. -/

namespace TasScript

/-- A positive number `d.ddd * 10 ^ exponent`; the digits end in none that is zero. -/
structure Figures where
  digits : List Char
  exponent : Int
  deriving Repr, DecidableEq

/-- Where positional writing gives way to an exponent, and whether a whole number keeps a point. -/
structure Layout where
  lowest : Int
  highest : Int
  pointZero : Bool
  deriving Repr, DecidableEq

namespace Figures

def zeros (n : Nat) : List Char := List.replicate n '0'

def dropZeros (ds : List Char) : List Char := (ds.reverse.dropWhile (· == '0')).reverse

/-- The number `n * 10 ^ place`. -/
def ofNat (n : Nat) (place : Int) : Figures :=
  let ds := Nat.toDigits 10 n
  ⟨dropZeros ds, place + ds.length - 1⟩

def positional (pointZero : Bool) (f : Figures) : List Char :=
  if f.exponent < 0 then '0' :: '.' :: (zeros (-f.exponent - 1).toNat ++ f.digits)
  else
    let whole := f.exponent.toNat + 1
    if f.digits.length ≤ whole then
      f.digits ++ zeros (whole - f.digits.length) ++ (if pointZero then ['.', '0'] else [])
    else f.digits.take whole ++ '.' :: f.digits.drop whole

/-- An exponent has a sign and at least two digits. -/
def exponentText (e : Int) : List Char :=
  let ds := Nat.toDigits 10 e.natAbs
  (if e < 0 then '-' else '+') :: (zeros (2 - ds.length) ++ ds)

def scientific (f : Figures) : List Char :=
  match f.digits with
  | [] => ['0']
  | [d] => d :: 'e' :: exponentText f.exponent
  | d :: ds => d :: '.' :: ds ++ 'e' :: exponentText f.exponent

def written (layout : Layout) (f : Figures) : List Char :=
  if layout.lowest ≤ f.exponent ∧ f.exponent < layout.highest then positional layout.pointZero f
  else scientific f

end Figures

end TasScript
