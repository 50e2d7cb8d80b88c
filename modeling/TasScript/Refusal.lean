import TasScript.Token.Basic

/-! Why an invocation was turned down, as its writer is told. -/

namespace TasScript

inductive RefusalKind where
  | unknownTool
  | missingArguments
  | trailingArguments
  | argumentMismatch
  | typeMismatch
  | unitMismatch
  | offMustBeAlone
  | unknownArgument
  | duplicateArgument
  | conflictingArguments
  | outOfRange
  deriving Repr, DecidableEq

namespace RefusalKind

def name : RefusalKind → String
  | unknownTool => "unknown_tool"
  | missingArguments => "missing_arguments"
  | trailingArguments => "trailing_arguments"
  | argumentMismatch => "argument_mismatch"
  | typeMismatch => "type_mismatch"
  | unitMismatch => "unit_mismatch"
  | offMustBeAlone => "off_must_be_alone"
  | unknownArgument => "unknown_argument"
  | duplicateArgument => "duplicate_argument"
  | conflictingArguments => "conflicting_arguments"
  | outOfRange => "out_of_range"

def all : List RefusalKind :=
  [unknownTool, missingArguments, trailingArguments, argumentMismatch, typeMismatch, unitMismatch,
    offMustBeAlone, unknownArgument, duplicateArgument, conflictingArguments, outOfRange]

def names : List (String × RefusalKind) := all.map fun k => (k.name, k)

end RefusalKind

structure Refusal where
  kind : RefusalKind
  message : String
  span : Option Span
  deriving Repr, DecidableEq

namespace Refusal

def text (r : Refusal) : String :=
  let body := r.kind.name ++ ": " ++ r.message
  match r.span with
  | none => body
  | some s =>
    toString s.line ++ ":" ++ toString s.startCol ++ "-" ++ toString s.endCol ++ " " ++ body

end Refusal

end TasScript
