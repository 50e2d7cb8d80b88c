import TasScript.Binary64.Basic
import TasScript.Decimal.Rounded

/-! The two texts of a double: one that reads back exactly, and one of six digits for messages. -/

namespace TasScript

/-- Positional below `10 ^ 16`, with a point even for whole numbers. -/
def exactLayout : Layout := ⟨-4, 16, true⟩

def sixLayout : Layout := ⟨-4, 6, false⟩

def writtenWith (layout : Layout) (figures : Nat → Int → Figures) (x : Float) : String :=
  match Binary64.ofFloat x with
  | .undefined => "nan"
  | .infinite negative => if negative then "-inf" else "inf"
  | .finite negative m e =>
    let body := if m = 0 then Figures.positional layout.pointZero ⟨['0'], 0⟩
      else (figures m e).written layout
    String.ofList (if negative then '-' :: body else body)

def exactText (x : Float) : String := writtenWith exactLayout shortestFigures x

def sixDigitText (x : Float) : String := writtenWith sixLayout (roundedFigures 6) x

end TasScript
