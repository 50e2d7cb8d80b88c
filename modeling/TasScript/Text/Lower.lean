import TasScript.Text.Range
import TasScript.Text.LowerTable
import TasScript.Text.CaseTable

/-! Lower case over the whole of Unicode. One letter, the dotted capital I, becomes two; a capital
sigma takes its final form where it closes a word. -/

namespace TasScript

def isCased (c : Char) : Bool := inRanges casedRanges c

def isCaseIgnorable (c : Char) : Bool := inRanges caseIgnorableRanges c

/-- Whether the first character that is not passed over has a case. -/
def casedNext : List Char → Bool
  | [] => false
  | c :: cs => if isCaseIgnorable c then casedNext cs else isCased c

/-- The image of code point `n` in the first run that holds it. -/
def lowerInRuns (n : Nat) : List (Nat × Nat × Nat × Nat) → Nat
  | [] => n
  | (first, last, step, image) :: runs =>
    if first ≤ n ∧ n ≤ last ∧ (n - first) % step = 0 then image + (n - first)
    else lowerInRuns n runs

/-- The lower-case form of one character where its neighbours do not matter. -/
def lowerChar (c : Char) : List Char :=
  if c.toNat < 0x80 then [c.toLower]
  else if c.toNat = 0x130 then ['i', Char.ofNat 0x307]
  else [Char.ofNat (lowerInRuns c.toNat lowerRuns)]

/-- The form of a capital sigma after `before`, nearest character first, and ahead of `after`. -/
def lowerSigma (before after : List Char) : Char :=
  if casedNext before && !casedNext after then Char.ofNat 0x3c2 else Char.ofNat 0x3c3

def lowerAfter (before : List Char) : List Char → List Char
  | [] => []
  | c :: cs =>
    (if c.toNat = 0x3a3 then [lowerSigma before cs] else lowerChar c) ++ lowerAfter (c :: before) cs

def lower (s : String) : String := String.ofList (lowerAfter [] s.toList)

/-- Two texts agree when only the case of their letters tells them apart. -/
def sameFolded (s t : String) : Bool := lower s == lower t

end TasScript
