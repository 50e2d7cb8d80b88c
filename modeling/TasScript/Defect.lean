import TasScript.Decimal.Setting
import TasScript.Fault
import TasScript.Text.Quoted

/-! The reasons for which an operation is refused as a whole, as opposed to an invocation that does
not fit its grammar. -/

namespace TasScript

/-- What a description is to become. -/
inductive Subject where
  | token
  | span
  | refusal
  | node
  | schema
  | tool
  | config
  deriving Repr, DecidableEq

namespace Subject

def name : Subject → String
  | token => "Token"
  | span => "SourceSpan"
  | refusal => "MatchError"
  | node => "ArgumentNode"
  | schema => "ToolSchema"
  | tool => "Tool"
  | config => "ScriptConfig"

end Subject

inductive Defect where
  | invalid (subject : Subject) (faults : List Fault)
  | duplicateTool (name : String)
  | sharedPriority (first second : String) (priority : Nat)
  | missingKey (key : String)
  | wordCoordinate
  | wordAngle
  | wordTolerance
  | integerTooLarge
  | infiniteDuration
  | undefinedDuration
  | wordDuration (text : String)
  | longDuration (digits : Nat)
  | unknownKind (name : String)
  | notACheck (tool : String)
  | negativeBudget (limit : Int)
  | noTokens
  deriving Repr, DecidableEq

namespace Defect

/-- The quoted form of a text that no number can be read from, cut off after 200 characters. -/
def excerpt (text : String) : String := String.ofList ((quoted text).toList.take 200)

def message : Defect → String
  | invalid subject faults => toString faults.length ++ " for " ++ subject.name
  | duplicateTool name => "Duplicate tool: " ++ name
  | sharedPriority first second priority =>
    "Tools '" ++ first ++ "' and '" ++ second ++ "' share priority index " ++ toString priority
  | missingKey key => quoted key
  | wordCoordinate => "must be real number, not str"
  | wordAngle => "unsupported operand type(s) for -: 'float' and 'str'"
  | wordTolerance => "'<=' not supported between instances of 'float' and 'str'"
  | integerTooLarge => "int too large to convert to float"
  | infiniteDuration => "cannot convert float infinity to integer"
  | undefinedDuration => "cannot convert float NaN to integer"
  | wordDuration text => "invalid literal for int() with base 10: " ++ excerpt text
  | longDuration digits =>
    "Exceeds the limit (" ++ toString wordDigitLimit ++
      " digits) for integer string conversion: value has " ++ toString digits ++
      " digits; use sys.set_int_max_str_digits() to increase the limit"
  | unknownKind name => quoted name ++ " is not a valid ErrorKind"
  | notACheck tool => "not a successful 'check' match: " ++ tool
  | negativeBudget limit => "max_replays must be >= 0, got " ++ toString limit
  | noTokens => "an invocation needs at least the tool name token"

end Defect

/-- A reading whose faults, if any, are those of one subject. -/
def Subject.accept {α : Type} (subject : Subject) : Except (List Fault) α → Except Defect α
  | .ok a => .ok a
  | .error fs => .error (.invalid subject fs)

end TasScript
