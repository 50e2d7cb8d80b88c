import TasScript.Datum.Checked
import TasScript.Grammar.Reading
import TasScript.Refusal

/-! Reading tokens, spans and refusals from untyped records. -/

namespace TasScript

open Datum

def Span.read (fields : List (String × Datum)) : Checked Span :=
  Span.mk <$> required fields "line" toNatural
    <*> required fields "start_col" toNatural
    <*> required fields "end_col" toNatural

def Token.read (fields : List (String × Datum)) : Checked Token :=
  (fun kind text line startCol endCol => Token.mk kind text ⟨line, startCol, endCol⟩)
    <$> required fields "kind" (toListed tokenKinds)
    <*> required fields "text" toText
    <*> required fields "line" toNatural
    <*> required fields "start_col" toNatural
    <*> required fields "end_col" toNatural

/-- The span is sound by the time a refusal is read. -/
def Refusal.read (fields : List (String × Datum)) (span : Option Span) : Checked Refusal :=
  (fun kind message => Refusal.mk kind message span)
    <$> required fields "kind" (toListed RefusalKind.names)
    <*> required fields "message" toText

end TasScript
