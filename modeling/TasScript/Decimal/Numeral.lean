import TasScript.Text.Digit

/-! Numerals at the start of a text: a sign, digits and a fraction, each of which may be missing as
long as one digit is there. What follows on the same line is the suffix. -/

namespace TasScript

/-- The parts of a numeral as they are written; a fraction of no digits is a bare point. -/
structure Numeral where
  sign : Option Char
  whole : List Char
  fraction : Option (List Char)
  deriving Repr, DecidableEq

namespace Numeral

def isSign (c : Char) : Bool := c == '+' || c == '-'

def text (n : Numeral) : List Char :=
  n.sign.toList ++ n.whole ++
    match n.fraction with
    | none => []
    | some ds => '.' :: ds

def fractionDigits (n : Numeral) : List Char := n.fraction.getD []

/-- At least one digit on either side of the point. -/
def hasDigit (n : Numeral) : Bool := !(n.whole.isEmpty && n.fractionDigits.isEmpty)

/-- The nearest double, ties to even; beyond the largest double, infinity. -/
def value (n : Numeral) : Float :=
  let amount := Float.ofScientific (digitsValue (n.whole ++ n.fractionDigits)) true
    n.fractionDigits.length
  if n.sign = some '-' then -amount else amount

def splitSign : List Char → Option Char × List Char
  | [] => (none, [])
  | c :: cs => if isSign c then (some c, cs) else (none, c :: cs)

/-- A point belongs to the numeral even when no digit follows it. -/
def splitFraction : List Char → Option (List Char) × List Char
  | '.' :: cs => (some (cs.takeWhile isDigit), cs.dropWhile isDigit)
  | cs => (none, cs)

/-- The longest numeral at the start, and the rest. -/
def scan? (cs : List Char) : Option (Numeral × List Char) :=
  let (sign, body) := splitSign cs
  let (fraction, rest) := splitFraction (body.dropWhile isDigit)
  let n : Numeral := ⟨sign, body.takeWhile isDigit, fraction⟩
  if n.hasDigit then some (n, rest) else none

end Numeral

/-- The text without one line break at its end. -/
def dropLineBreak (cs : List Char) : List Char :=
  if cs.getLast? = some '\n' then cs.dropLast else cs

/-- The numeral and the suffix of a text; none where a line break stands before its end. -/
def splitNumeral? (cs : List Char) : Option (Numeral × List Char) :=
  if (dropLineBreak cs).contains '\n' then none else Numeral.scan? (dropLineBreak cs)

/-- The value and the suffix of the text of a number. -/
def splitNumber? (s : String) : Option (Float × String) :=
  (splitNumeral? s.toList).map fun (n, suffix) => (n.value, String.ofList suffix)

end TasScript
