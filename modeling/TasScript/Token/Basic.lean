import TasScript.Text.Lower

/-! The tokens of a script line and the columns they cover. -/

namespace TasScript

inductive TokenKind where
  | string
  | number
  deriving Repr, DecidableEq

/-- A range of columns on one line. -/
structure Span where
  line : Nat
  startCol : Nat
  endCol : Nat
  deriving Repr, DecidableEq, Inhabited

namespace Span

/-- From the start of `first` to the end of `last`, on the line of `first`. -/
def covering (first last : Span) : Span := ⟨first.line, first.startCol, last.endCol⟩

/-- The empty range behind a span. -/
def after (s : Span) : Span := ⟨s.line, s.endCol, s.endCol⟩

end Span

/-- A word or a number; the text of a number holds its unit. -/
structure Token where
  kind : TokenKind
  text : String
  span : Span
  deriving Repr, DecidableEq

namespace Token

def isNumber (t : Token) : Bool := t.kind == .number

/-- Keywords are compared without regard to case. -/
def isKeyword (t : Token) (keyword : String) : Bool := sameFolded t.text keyword

end Token

/-- The span of a run of tokens. -/
def spanOf? (tokens : List Token) : Option Span :=
  match tokens.head?, tokens.getLast? with
  | some first, some last => some (first.span.covering last.span)
  | _, _ => none

end TasScript
