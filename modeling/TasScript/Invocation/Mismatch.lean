import TasScript.Decimal.Written
import TasScript.Refusal

/-! The ways in which tokens fail to fit a grammar. Slots appear by their labels. -/

namespace TasScript

inductive Mismatch where
  | argumentsExpected (tool : String)
  | offNotAlone
  | trailing (text tool : String)
  | nothingLeft (label : String)
  | noAlternative (label : String) (atEnd : Bool)
  | otherKeyword (label text : String)
  | numberExpected (label text : String)
  | wordExpected (label text : String)
  | notAChoice (text : String) (choices : List String)
  | unitMissing (unit : String)
  | unitUnexpected (suffix : String)
  | otherUnit (unit suffix : String)
  | notWhole (label : String)
  | tooSmall (label : String) (minimum : Float)
  | tooLarge (label : String) (maximum : Float)
  | unknown (text tool : String)
  | repeated (label : String)
  | conflicting (label other : String)
  | flagsMissing (labels : List String)
  deriving Repr, DecidableEq

namespace Mismatch

def kind : Mismatch → RefusalKind
  | argumentsExpected _ | nothingLeft _ | noAlternative _ true | flagsMissing _ => .missingArguments
  | offNotAlone => .offMustBeAlone
  | trailing _ _ => .trailingArguments
  | noAlternative _ false | otherKeyword _ _ | notAChoice _ _ => .argumentMismatch
  | numberExpected _ _ | wordExpected _ _ => .typeMismatch
  | unitMissing _ | unitUnexpected _ | otherUnit _ _ => .unitMismatch
  | notWhole _ | tooSmall _ _ | tooLarge _ _ => .outOfRange
  | unknown _ _ => .unknownArgument
  | repeated _ => .duplicateArgument
  | conflicting _ _ => .conflictingArguments

def message : Mismatch → String
  | argumentsExpected tool => "'" ++ tool ++ "' expects arguments"
  | offNotAlone => "'off' cannot be combined with other arguments"
  | trailing text tool => "unexpected argument '" ++ text ++ "' for '" ++ tool ++ "'"
  | nothingLeft label => "missing " ++ label
  | noAlternative label _ => "expected " ++ label ++ " or its alternative"
  | otherKeyword label text => "expected " ++ label ++ ", got '" ++ text ++ "'"
  | numberExpected label text => "expected a number for " ++ label ++ ", got '" ++ text ++ "'"
  | wordExpected label text => "expected a word for " ++ label ++ ", got '" ++ text ++ "'"
  | notAChoice text choices => "'" ++ text ++ "' is not one of: " ++ ", ".intercalate choices
  | unitMissing unit => "missing unit '" ++ unit ++ "'"
  | unitUnexpected suffix => "unexpected unit '" ++ suffix ++ "'"
  | otherUnit unit suffix => "expected unit '" ++ unit ++ "', got '" ++ suffix ++ "'"
  | notWhole label => label ++ " must be a whole number"
  | tooSmall label minimum => label ++ " must be at least " ++ sixDigitText minimum
  | tooLarge label maximum => label ++ " must be at most " ++ sixDigitText maximum
  | unknown text tool => "unknown argument '" ++ text ++ "' for '" ++ tool ++ "'"
  | repeated label => label ++ " given more than once"
  | conflicting label other => label ++ " conflicts with " ++ other
  | flagsMissing labels => "missing " ++ ", ".intercalate labels

/-- The kinds that an optional node may pass over. -/
def isSoft (m : Mismatch) : Bool :=
  match m.kind with
  | .missingArguments | .argumentMismatch | .typeMismatch => true
  | _ => false

end Mismatch

end TasScript
