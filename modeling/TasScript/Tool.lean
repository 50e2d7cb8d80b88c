import TasScript.Datum.Checked

/-! A running tool: where its line stands in the script, when it was started, and for how long it is
still to run. -/

namespace TasScript

structure Tool where
  name : String
  line : Nat
  startCol : Nat
  endCol : Nat
  priority : Nat
  activatedTick : Int := 0
  /-- None for a tool that runs until it is turned off or replaced. -/
  remaining : Option Nat := none
  deriving Repr, DecidableEq

namespace Tool

def isUnbounded (t : Tool) : Bool := t.remaining.isNone

/-- One tick less, down to zero. -/
def tickElapsed (t : Tool) : Tool := { t with remaining := t.remaining.map (· - 1) }

open Datum in
def read (fields : List (String × Datum)) : Checked Tool :=
  Tool.mk <$> required fields "tool" toText
    <*> required fields "from_line" toNatural
    <*> required fields "start_col" toNatural
    <*> required fields "end_col" toNatural
    <*> required fields "priority_index" toNatural
    <*> optional fields "activated_tick" 0 toInteger
    <*> optional fields "ticks_remaining" none (orAbsent toNatural)

/-- The lowest priority runs first, then the first name. -/
def runsBefore (a b : Tool) : Bool :=
  decide (a.priority < b.priority) || (a.priority == b.priority && !decide (b.name < a.name))

end Tool

end TasScript
