import TasScript.Invocation.Match
import TasScript.Log
import TasScript.Text.Sorted
import TasScript.Tool

/-! The tools that run at a moment, one at most of each name, in the order in which their names were
first started. -/

namespace TasScript

inductive ToolAction where
  | started (remaining : Option Nat)
  | replaced (remaining : Option Nat)
  | turnedOff
  | stoppedAll (names : List String)
  | expired
  deriving Repr, DecidableEq

/-- What happened to a tool, or through one, on a tick. -/
structure ToolEvent where
  tick : Int
  tool : String
  action : ToolAction
  deriving Repr, DecidableEq

namespace ToolAction

def name : ToolAction → String
  | started _ => "START"
  | replaced _ => "REPLACE"
  | turnedOff => "OFF"
  | stoppedAll _ => "STOP_ALL"
  | expired => "EXPIRED"

def remainingText : Option Nat → String
  | none => "unbounded"
  | some n => toString n ++ " ticks"

def details : ToolAction → Option String
  | started remaining | replaced remaining => some (remainingText remaining)
  | stoppedAll names => some ("stopped=" ++ quotedList names)
  | turnedOff | expired => none

end ToolAction

namespace ToolEvent

def record (e : ToolEvent) : Record :=
  Log.tool Log.activeTools e.tick e.tool e.action.name e.action.details

end ToolEvent

structure ActiveTools where
  tools : Entries Tool := []
  tick : Int := 0

namespace ActiveTools

def get? (a : ActiveTools) (name : String) : Option Tool := a.tools.get? name

def contains (a : ActiveTools) (name : String) : Bool := (a.get? name).isSome

def size (a : ActiveTools) : Nat := a.tools.length

/-- The running tools in their order of execution. -/
def inOrder (a : ActiveTools) : List Tool := (a.tools.map Prod.snd).mergeSort Tool.runsBefore

def clear (a : ActiveTools) : ActiveTools := { a with tools := [] }

/-- A tool from the match that starts it; a duration below zero is refused. -/
def toolOf (s : Schema) (m : Match) (tick : Int) : Except Defect Tool :=
  match m.duration with
  | .error d => .error d
  | .ok duration =>
    let span := m.span.getD ⟨0, 0, 0⟩
    let build := fun remaining : Option Nat =>
      Tool.mk s.name span.line span.startCol span.endCol s.priority tick remaining
    match duration with
    | none => .ok (build none)
    | some n =>
      if n < 0 then .error (.invalid .tool [⟨[.field "ticks_remaining"], .belowZero⟩])
      else .ok (build (some n.toNat))

/-- What one match does to the running tools. -/
structure Applied where
  active : ActiveTools
  started : Option Tool := none
  events : List ToolEvent := []

def turnOff (a : ActiveTools) (s : Schema) (tick : Int) : Applied :=
  if a.contains s.name then
    { active := { a with tools := a.tools.erase s.name }
      events := [⟨tick, s.name, .turnedOff⟩] }
  else { active := a }

theorem started_turnOff (a : ActiveTools) (s : Schema) (tick : Int) :
    (a.turnOff s tick).started = none := by
  unfold turnOff
  split <;> rfl

theorem tick_turnOff (a : ActiveTools) (s : Schema) (tick : Int) :
    (a.turnOff s tick).active.tick = a.tick := by
  unfold turnOff
  split <;> rfl

def stopAll (a : ActiveTools) (s : Schema) (tick : Int) : Applied :=
  { active := a.clear
    events := [⟨tick, s.name, .stoppedAll (sortedNames a.tools.names)⟩] }

def start (a : ActiveTools) (s : Schema) (t : Tool) (tick : Int) : Applied :=
  { active := { a with tools := a.tools.set s.name t }
    started := some t
    events := [⟨tick, s.name,
      if a.contains s.name then .replaced t.remaining else .started t.remaining⟩] }

/-- A refused match, or one without a grammar, does nothing. -/
def apply (a : ActiveTools) (m : Match) (tick : Int) : Except Defect Applied :=
  match m.schema, m.verdict with
  | none, _ | _, .refused _ => .ok { active := a }
  | some s, .off => .ok (a.turnOff s tick)
  | some s, .bound _ _ =>
    if s.stopsAllTools then .ok (a.stopAll s tick)
    else if s.registersActiveState then
      match toolOf s m tick with
      | .ok t => .ok (a.start s t tick)
      | .error d => .error d
    else .ok { active := a }

/-- The tools after one tick: those that go on, and those that it was the last for. -/
def elapse : Entries Tool → Entries Tool × List Tool
  | [] => ([], [])
  | (name, t) :: es =>
    let (running, expired) := elapse es
    if t.tickElapsed.remaining = some 0 then (running, t.tickElapsed :: expired)
    else ((name, t.tickElapsed) :: running, expired)

def advance (a : ActiveTools) : ActiveTools × List Tool × List ToolEvent :=
  let (running, expired) := elapse a.tools
  let tick := a.tick + 1
  ({ tools := running, tick }, expired, expired.map fun t => ⟨tick, t.name, .expired⟩)

end ActiveTools

end TasScript
