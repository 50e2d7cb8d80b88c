import TasScript.Text.Range
import TasScript.Text.DigitTable

/-! Decimal digits of any script, and the number a run of them stands for. -/

namespace TasScript

/-- The value of `n` in the first range that holds it. -/
def digitInRanges (n : Nat) : List (Nat × Nat) → Option Nat
  | [] => none
  | (first, last) :: ranges =>
    if first ≤ n ∧ n ≤ last then some ((n - first) % 10) else digitInRanges n ranges

def digitValue? (c : Char) : Option Nat := digitInRanges c.toNat digitRanges

def isDigit (c : Char) : Bool := (digitValue? c).isSome

/-- The number written by `ds` to the right of the digits of `acc`. -/
def digitsValueFrom (acc : Nat) : List Char → Nat
  | [] => acc
  | c :: cs => digitsValueFrom (10 * acc + (digitValue? c).getD 0) cs

def digitsValue (ds : List Char) : Nat := digitsValueFrom 0 ds

def isAsciiDigit (c : Char) : Bool := decide (0x30 ≤ c.toNat) && decide (c.toNat ≤ 0x39)

end TasScript
