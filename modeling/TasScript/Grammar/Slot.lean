import TasScript.Token.Basic
import TasScript.Fault
import TasScript.Decimal.Numeral

/-! One slot of a tool's grammar: a fixed keyword, a number with its unit and bounds, or a word that
may be restricted to a list of choices. -/

namespace TasScript

structure Slot where
  kind : TokenKind
  required : Bool := false
  text : Option String := none
  unit : Option String := none
  description : Option String := none
  key : Option String := none
  /-- In rising order, each once. -/
  choices : Option (List String) := none
  integer : Bool := false
  minimum : Option Float := none
  maximum : Option Float := none
  group : Option String := none
  deriving DecidableEq

namespace Slot

def isKeyword (s : Slot) : Bool := s.text.isSome

/-- The unit without the question marks that make it optional. -/
def unitName? (s : Slot) : Option String :=
  s.unit.map fun u => String.ofList ((u.toList.reverse.dropWhile (· == '?')).reverse)

def unitOptional (s : Slot) : Bool :=
  match s.unit with
  | some u => u.toList.getLast? == some '?'
  | none => false

/-- No suffix is accepted without a unit or with an optional one; a suffix must be the unit. -/
def acceptsUnit (s : Slot) (suffix : String) : Bool :=
  if suffix.isEmpty then s.unit.isNone || s.unitOptional
  else
    match s.unitName? with
    | some u => sameFolded suffix u
    | none => false

/-- The name of the slot in messages. -/
def label (s : Slot) : String :=
  match s.text, s.key, s.kind with
  | some text, _, _ => "'" ++ text ++ "'"
  | none, some key, _ => "<" ++ key ++ ">"
  | none, none, .number =>
    match s.unitName? with
    | some u => if u.isEmpty then "<number>" else "<number:" ++ u ++ ">"
    | none => "<number>"
  | none, none, .string => "<word>"

def hasNumericRule (s : Slot) : Bool :=
  s.unit.isSome || s.integer || s.minimum.isSome || s.maximum.isSome

/-- The first broken rule among those that join several attributes. -/
def shapeCause? (s : Slot) : Option Cause :=
  match s.text, s.kind with
  | some text, .number => some (.numericKeyword text)
  | _, kind =>
    if kind = .string ∧ s.hasNumericRule then some .numericWord
    else if s.choices.isSome ∧ (kind = .number ∨ s.text.isSome) then some .misplacedChoices
    else
      match s.minimum, s.maximum with
      | some lo, some hi => if hi < lo then some (.emptyInterval lo hi) else none
      | _, _ => none

end Slot

end TasScript
