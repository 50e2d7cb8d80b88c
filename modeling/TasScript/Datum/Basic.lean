import TasScript.Binary64.Basic
import TasScript.Decimal.Setting
import TasScript.Fault

/-! Values without a fixed type, as a host hands them in, and the readers of single values. A text
is read as a number where one is wanted, and a whole real as an integer. -/

namespace TasScript

inductive Datum where
  | null
  | boolean (b : Bool)
  | integer (n : Int)
  | real (x : Float)
  | text (s : String)
  | list (items : List Datum)
  | record (fields : List (String × Datum))
  deriving Inhabited

namespace Datum

def toText : Datum → Except Cause String
  | text s => .ok s
  | _ => .error .notText

/-- A real is an integer where it is finite, whole and less than `2 ^ 63` in size. -/
def integerOfReal (x : Float) : Except Cause Int :=
  match truncated? x with
  | none => .error .notFinite
  | some n =>
    if !isWhole x then .error .fractional
    else if n.natAbs < twoTo 63 then .ok n
    else .error .integerSize

def toInteger : Datum → Except Cause Int
  | integer n => .ok n
  | boolean b => .ok (if b then 1 else 0)
  | real x => integerOfReal x
  | text s =>
    match settingInteger? s with
    | some n => .ok n
    | none => .error .integerText
  | _ => .error .notInteger

def toReal : Datum → Except Cause Float
  | integer n =>
    match realOfInteger? n with
    | some x => .ok x
    | none => .error .notNumber
  | boolean b => .ok (if b then 1 else 0)
  | real x => .ok x
  | text s =>
    match settingReal? s with
    | some x => .ok x
    | none => .error .numberText
  | _ => .error .notNumber

def trueWords : List String := ["1", "on", "t", "true", "y", "yes"]

def falseWords : List String := ["0", "off", "f", "false", "n", "no"]

def booleanOfInteger (n : Int) : Except Cause Bool :=
  if n = 1 then .ok true else if n = 0 then .ok false else .error .booleanText

/-- Numbers of 64 bits or more, and reals that are no integers, are not taken for booleans at
all. -/
def toBoolean : Datum → Except Cause Bool
  | boolean b => .ok b
  | integer n =>
    if -(twoTo 63 : Int) ≤ n ∧ n < (twoTo 63 : Int) then booleanOfInteger n
    else .error .notBoolean
  | real x =>
    match integerOfReal x with
    | .ok n => booleanOfInteger n
    | .error _ => .error .notBoolean
  | text s =>
    let word := String.ofList (s.toList.map Char.toLower)
    if trueWords.contains word then .ok true
    else if falseWords.contains word then .ok false
    else .error .booleanText
  | _ => .error .notBoolean

/-- An integer that is not negative. -/
def toNatural (d : Datum) : Except Cause Nat :=
  match d.toInteger with
  | .ok n => if n < 0 then .error .belowZero else .ok n.toNat
  | .error c => .error c

/-- A real that is at least zero; one that is not a number is not. -/
def toNonnegative (d : Datum) : Except Cause Float :=
  match d.toReal with
  | .ok x => if 0 ≤ x then .ok x else .error .belowZero
  | .error c => .error c

/-- A null stands for the absence of a value. -/
def orAbsent {α : Type} (read : Datum → Except Cause α) : Datum → Except Cause (Option α)
  | null => .ok none
  | d => (read d).map some

/-- One of a list of names. -/
def toListed {α : Type} (names : List (String × α)) (d : Datum) : Except Cause α :=
  match d with
  | text s =>
    match names.lookup s with
    | some a => .ok a
    | none => .error (.notListed (names.map Prod.fst))
  | _ => .error (.notListed (names.map Prod.fst))

end Datum

end TasScript
