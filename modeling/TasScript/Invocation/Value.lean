import TasScript.Decimal.Written
import TasScript.Grammar.Slot
import TasScript.Invocation.Mismatch
import TasScript.Text.Quoted

/-! What a slot is bound to, and how one token binds one slot. -/

namespace TasScript

/-- A number as it was bound: whole where its slot asks for it. -/
inductive Quantity where
  | real (x : Float)
  | whole (n : Int)
  deriving DecidableEq

namespace Quantity

def toReal? : Quantity → Option Float
  | real x => some x
  | whole n => realOfInteger? n

/-- Whether the double nearest to an integer is at most that integer. -/
def roundsDown (n : Int) : Bool :=
  match truncated? (Float.ofInt n) with
  | some k => decide (k ≤ n)
  | none => decide (n < 0)

/-- Whether a double is at most the number. An integer is not rounded for this: there is no double
between it and the one nearest to it, so only that one can be on the wrong side. -/
def bounds (q : Quantity) (x : Float) : Bool :=
  match q with
  | real y => decide (x ≤ y)
  | whole n => if roundsDown n then decide (x ≤ Float.ofInt n) else decide (x < Float.ofInt n)

def text : Quantity → String
  | real x => exactText x
  | whole n => toString n

end Quantity

inductive Value where
  | word (s : String)
  | amount (q : Quantity)
  deriving DecidableEq

namespace Value

def ofReal (x : Float) : Value := amount (.real x)

def toReal? : Value → Option Float
  | word _ => none
  | amount q => q.toReal?

def text : Value → String
  | word s => quoted s
  | amount q => q.text

theorem ofReal_inj {x y : Float} : ofReal x = ofReal y ↔ x = y := by simp [ofReal]

end Value

namespace Slot

/-- The bounds are compared before a whole number is stored as one. -/
def bindAmount (s : Slot) (x : Float) : Except Mismatch Value :=
  if s.integer && !isWhole x then .error (.notWhole s.label)
  else
    match s.minimum.filter (x < ·), s.maximum.filter (· < x) with
    | some lo, _ => .error (.tooSmall s.label lo)
    | none, some hi => .error (.tooLarge s.label hi)
    | none, none =>
      .ok (.amount (if s.integer then .whole ((truncated? x).getD 0) else .real x))

def unitMismatch (s : Slot) (suffix : String) : Mismatch :=
  match s.unitName? with
  | none => .unitUnexpected suffix
  | some u => if suffix.isEmpty then .unitMissing u else .otherUnit u suffix

def bindNumber (s : Slot) (t : Token) : Except Mismatch Value :=
  match if t.isNumber then splitNumber? t.text else none with
  | none => .error (.numberExpected s.label t.text)
  | some (x, suffix) =>
    if s.acceptsUnit suffix then s.bindAmount x else .error (s.unitMismatch suffix)

def bindWord (s : Slot) (t : Token) : Except Mismatch Value :=
  if t.isNumber then .error (.wordExpected s.label t.text)
  else
    match s.choices with
    | none => .ok (.word t.text)
    | some choices =>
      if choices.contains (lower t.text) then .ok (.word (lower t.text))
      else .error (.notAChoice t.text choices)

/-- The value a token gives a slot. A keyword is bound as the grammar writes it. -/
def bind (s : Slot) (t : Token) : Except Mismatch Value :=
  match s.text, s.kind with
  | some text, _ =>
    if t.isKeyword text then .ok (.word text) else .error (.otherKeyword s.label t.text)
  | none, .number => s.bindNumber t
  | none, .string => s.bindWord t

/-- Whether a token is shaped like this slot, whatever its bounds. -/
def fits (s : Slot) (t : Token) : Bool :=
  match s.text, s.kind with
  | some text, _ => t.isKeyword text
  | none, .number =>
    t.isNumber &&
      match splitNumber? t.text with
      | some (_, suffix) => s.acceptsUnit suffix
      | none => false
  | none, .string =>
    !t.isNumber &&
      match s.choices with
      | some choices => choices.contains (lower t.text)
      | none => true

end Slot

end TasScript
