import TasScript.Decimal.Written

/-! What can be wrong with a description handed in from outside, and where. Each fault carries the
path from the outermost description to the faulty part. -/

namespace TasScript

/-- One step down a description: into a field or to an item of a list. -/
inductive Step where
  | field (name : String)
  | item (index : Nat)
  deriving Repr, DecidableEq

inductive Cause where
  | missing
  | notListed (names : List String)
  | belowZero
  | notText
  | emptyText
  | notInteger
  | fractional
  | notFinite
  | integerSize
  | integerText
  | notNumber
  | numberText
  | notBoolean
  | booleanText
  | notSequence
  | notSet
  | notANode
  | numericKeyword (text : String)
  | numericWord
  | misplacedChoices
  | emptyInterval (minimum maximum : Float)
  | durationOutside (tool : String) (index : Int) (slots : Nat)
  | durationNotNumeric (tool : String) (index : Int)
  deriving Repr, DecidableEq

/-- Names in quotes, the last two joined by a word. -/
def orList : List String → String
  | [] => ""
  | [a] => "'" ++ a ++ "'"
  | [a, b] => "'" ++ a ++ "' or '" ++ b ++ "'"
  | a :: names => "'" ++ a ++ "', " ++ orList names

namespace Cause

/-- The code by which a host tells faults apart; rules that join several fields share one. -/
def code : Cause → String
  | missing => "missing"
  | notListed _ => "enum"
  | belowZero => "greater_than_equal"
  | notText => "string_type"
  | emptyText => "string_too_short"
  | notInteger => "int_type"
  | fractional => "int_from_float"
  | notFinite => "finite_number"
  | integerSize => "int_parsing_size"
  | integerText => "int_parsing"
  | notNumber => "float_type"
  | numberText => "float_parsing"
  | notBoolean => "bool_type"
  | booleanText => "bool_parsing"
  | notSequence => "tuple_type"
  | notSet => "frozen_set_type"
  | notANode => "model_type"
  | _ => "value_error"

/-- The broken rule, where it joins several fields. -/
def rule : Cause → String
  | numericKeyword text => "keyword '" ++ text ++ "' must be a string node"
  | numericWord => "numeric constraints on a string node"
  | misplacedChoices => "choices are only valid on string value nodes"
  | emptyInterval lo hi => "minimum " ++ exactText lo ++ " > maximum " ++ exactText hi
  | durationOutside tool index slots =>
    tool ++ ": duration_index " ++ toString index ++ " outside " ++ toString slots ++ " slots"
  | durationNotNumeric tool index =>
    tool ++ ": duration slot " ++ toString index ++ " is not numeric"
  | _ => ""

def message : Cause → String
  | missing => "Field required"
  | notListed names => "Input should be " ++ orList names
  | belowZero => "Input should be greater than or equal to 0"
  | notText => "Input should be a valid string"
  | emptyText => "String should have at least 1 character"
  | notInteger => "Input should be a valid integer"
  | fractional => "Input should be a valid integer, got a number with a fractional part"
  | notFinite => "Input should be a finite number"
  | integerSize => "Unable to parse input string as an integer, exceeded maximum size"
  | integerText => "Input should be a valid integer, unable to parse string as an integer"
  | notNumber => "Input should be a valid number"
  | numberText => "Input should be a valid number, unable to parse string as a number"
  | notBoolean => "Input should be a valid boolean"
  | booleanText => "Input should be a valid boolean, unable to interpret input"
  | notSequence => "Input should be a valid tuple"
  | notSet => "Input should be a valid frozenset"
  | notANode => "Input should be a valid dictionary or instance of ArgumentNode"
  | cause => "Value error, " ++ cause.rule

end Cause

structure Fault where
  path : List Step
  cause : Cause
  deriving Repr, DecidableEq

namespace Fault

/-- A fault of the whole description. -/
def ofCause (cause : Cause) : Fault := ⟨[], cause⟩

/-- The same fault seen from further out. -/
def under (steps : List Step) (f : Fault) : Fault := ⟨steps ++ f.path, f.cause⟩

end Fault

end TasScript
