import TasScript.Text.Blank
import TasScript.Text.Digit

/-! Numbers in the text of a setting. Integers may start with zeros and end in a point and zeros;
reals may have an exponent or be infinite. Single low lines group the digits of both. Blanks around
a number are passed over, except around a real with low lines. -/

namespace TasScript

/-- Whether a minus stands in front, and what follows the sign. -/
def splitMinus : List Char → Bool × List Char
  | '-' :: cs => (true, cs)
  | '+' :: cs => (false, cs)
  | cs => (false, cs)

def negatedIf (negative : Bool) (n : Int) : Int := if negative then -n else n

/-- Whether no low line stands at an end or next to another. A low line before the text counts. -/
def lowLinesApart (afterLine : Bool) : List Char → Bool
  | [] => !afterLine
  | c :: cs => if c = '_' then !afterLine && lowLinesApart true cs else lowLinesApart false cs

/-- The text without its low lines, which must stand apart. -/
def withoutLowLines? (cs : List Char) : Option (List Char) :=
  if lowLinesApart true cs then some (cs.filter (· != '_')) else none

/-- The text from its first character on that is neither a zero nor a low line. The character `last`
before it is kept where there is none, or where it is a point. -/
def behindZerosFrom? (last : Char) : List Char → Option (List Char)
  | [] => some [last]
  | c :: cs =>
    if c = '0' ∨ c = '_' then behindZerosFrom? c cs
    else if c = '.' then some (last :: c :: cs)
    else if c = '-' ∨ isAsciiDigit c then some (c :: cs)
    else none

/-- The text without leading zeros. Any number of low lines may stand among these and behind them,
and a minus behind those. -/
def behindZeros? : List Char → Option (List Char)
  | [] => none
  | c :: cs =>
    if c = '0' then behindZerosFrom? c cs else if isAsciiDigit c then some (c :: cs) else none

/-- The text without a plus in front and without the zeros that lead the digits behind its sign. -/
def withoutLead? : List Char → Option (List Char)
  | '-' :: cs => (behindZeros? cs).map ('-' :: ·)
  | '+' :: cs => behindZeros? cs
  | cs => behindZeros? cs

/-- Nothing, or a point and at least one zero. -/
def isZeroFraction : List Char → Bool
  | [] => true
  | c :: zs => c == '.' && !zs.isEmpty && zs.all (· == '0')

def withoutZeroFraction? (cs : List Char) : Option (List Char) :=
  if isZeroFraction (cs.dropWhile (· != '.')) then some (cs.takeWhile (· != '.')) else none

/-- At least one ASCII digit and nothing else. -/
def isAsciiNumeral (cs : List Char) : Bool := !cs.isEmpty && cs.all isAsciiDigit

def plainInteger? : List Char → Option Int
  | '-' :: ds => if isAsciiNumeral ds then some (-(digitsValue ds : Int)) else none
  | ds => if isAsciiNumeral ds then some (digitsValue ds) else none

def settingInteger? (s : String) : Option Int := do
  let amount ← withoutLead? (stripChars isWhite s.toList)
  let whole ← withoutZeroFraction? amount
  plainInteger? (← withoutLowLines? whole)

/-- Digits of any script without the single low lines between them. -/
def ungrouped? : List Char → Option (List Char)
  | [] => none
  | [c] => if isDigit c then some [c] else none
  | c :: '_' :: cs => if isDigit c then (ungrouped? cs).map (c :: ·) else none
  | c :: cs => if isDigit c then (ungrouped? cs).map (c :: ·) else none

/-- The most digits that a word may spell an integer with. -/
def wordDigitLimit : Nat := 4300

/-- Why a word spells no integer. -/
inductive WordFault where
  | notDigits
  | tooManyDigits (count : Nat)

/-- The integer a word spells in digits of any script. They are counted before what stands behind
them is looked at. -/
def wordInteger (s : String) : Except WordFault Int :=
  let (negative, body) := splitMinus (stripChars isWhite s.toList)
  let numeral := body.takeWhile fun c => isDigit c || c == '_'
  match ungrouped? numeral with
  | none => .error .notDigits
  | some digits =>
    if wordDigitLimit < digits.length then .error (.tooManyDigits digits.length)
    else if numeral.length = body.length then .ok (negatedIf negative (digitsValue digits))
    else .error .notDigits

/-- The exponent behind a mantissa, zero where there is none. -/
def settingExponent? : List Char → Option Int
  | [] => some 0
  | _ :: cs =>
    let (negative, body) := splitMinus cs
    if isAsciiNumeral body then some (negatedIf negative (digitsValue body)) else none

/-- The nearest double to `n * 10 ^ e`, for an `n` of at most `digits` digits. An exponent that is
far from zero is cut down to one that gives the same infinity or zero. -/
def scaledByTen (n digits : Nat) (e : Int) : Float :=
  let near := max (-400 - (digits : Int)) (min 400 e)
  Float.ofScientific n (decide (near < 0)) near.natAbs

def unsignedReal? (cs : List Char) : Option Float :=
  let word := cs.map Char.toLower
  if word = ['i', 'n', 'f'] ∨ word = ['i', 'n', 'f', 'i', 'n', 'i', 't', 'y'] then some (1.0 / 0.0)
  else if word = ['n', 'a', 'n'] then some (0.0 / 0.0)
  else
    let isMark := fun c => c == 'e' || c == 'E'
    let mantissa := cs.takeWhile (!isMark ·)
    let whole := mantissa.takeWhile (· != '.')
    let fraction := (mantissa.dropWhile (· != '.')).drop 1
    let digits := whole ++ fraction
    if isAsciiNumeral digits then
      (settingExponent? (cs.dropWhile (!isMark ·))).map fun exponent =>
        scaledByTen (digitsValue digits) digits.length (exponent - fraction.length)
    else none

def signedReal? (cs : List Char) : Option Float :=
  let (negative, body) := splitMinus cs
  (unsignedReal? body).map fun x => if negative then -x else x

/-- Low lines are dropped only from a text that is no real as it stands; blanks are kept then. -/
def settingReal? (s : String) : Option Float :=
  match signedReal? (stripChars isWhite s.toList) with
  | some x => some x
  | none => (withoutLowLines? s.toList).bind signedReal?

end TasScript
