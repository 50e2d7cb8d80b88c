import TasScript.Config.Basic
import TasScript.Invocation.Match
import TasScript.Pose

/-! What a check asks of the player, read from the bound values of its invocation. The values are
kept as they were bound; only a comparison with the player needs numbers. -/

namespace TasScript

structure CheckTarget where
  tick : Int
  position : Option (Position Value)
  angles : Option (Angles Value)
  posEpsilon : Value
  angEpsilon : Value
  span : Option Span
  deriving DecidableEq

/-- How far a player is from a target, as far as that asks for it, and whether that is near
enough. -/
structure Comparison where
  positionError : Option Float
  angleError : Option Float
  isMet : Bool
  deriving DecidableEq

/-- A value in a place where a word gives the defect `word`. -/
def Value.toReal (word : Defect) (v : Value) : Except Defect Float :=
  match v with
  | .word _ => .error word
  | .amount q =>
    match q.toReal? with
    | some x => .ok x
    | none => .error .integerTooLarge

namespace CheckTarget

/-- A value that a part of the target cannot do without. -/
def needed (named : Entries Value) (key : String) : Except Defect Value :=
  match named.get? key with
  | some v => .ok v
  | none => .error (.missingKey key)

def position? (named : Entries Value) : Except Defect (Option (Position Value)) :=
  match named.get? "x" with
  | none => .ok none
  | some x => do
    let y ← needed named "y"
    let z ← needed named "z"
    .ok (some ⟨x, y, z⟩)

def angles? (named : Entries Value) : Except Defect (Option (Angles Value)) :=
  match named.get? "pitch" with
  | none => .ok none
  | some pitch => do
    let yaw ← needed named "yaw"
    .ok (some ⟨pitch, yaw⟩)

def epsilon (named : Entries Value) (key : String) (absent : Float) : Value :=
  (named.get? key).getD (.ofReal absent)

/-- A tolerance that is not given is taken from the settings. -/
def ofMatch (m : Match) (tick : Int) (config : Config) : Except Defect CheckTarget := do
  let position ← position? m.named
  let angles ← angles? m.named
  .ok ⟨tick, position, angles, epsilon m.named "posepsilon" config.posEpsilon,
    epsilon m.named "angepsilon" config.angEpsilon, m.span⟩

def positionError? (t : CheckTarget) (player : Player) : Except Defect (Option Float) :=
  t.position.mapM fun p =>
    (p.mapM (Value.toReal .wordCoordinate)).map player.position.distance

def angleError? (t : CheckTarget) (player : Player) : Except Defect (Option Float) :=
  t.angles.mapM fun a => (a.mapM (Value.toReal .wordAngle)).map player.angles.difference

/-- An error that is not a number is within no tolerance. -/
def within (error : Option Float) (epsilon : Value) : Except Defect Bool :=
  match error, epsilon with
  | none, _ => .ok true
  | some _, .word _ => .error .wordTolerance
  | some e, .amount q => .ok (q.bounds e)

/-- The tolerance of angles is not looked at where the position is too far off. -/
def areWithin (t : CheckTarget) (positionError angleError : Option Float) :
    Except Defect Bool := do
  if ← within positionError t.posEpsilon then within angleError t.angEpsilon else .ok false

def compareWith (t : CheckTarget) (player : Player) : Except Defect Comparison := do
  let positionError ← t.positionError? player
  let angleError ← t.angleError? player
  let isMet ← t.areWithin positionError angleError
  .ok { positionError, angleError, isMet }

def positionText (t : CheckTarget) : String :=
  match t.position with
  | none => "None"
  | some p => "Vector(x=" ++ p.x.text ++ ", y=" ++ p.y.text ++ ", z=" ++ p.z.text ++ ")"

def anglesText (t : CheckTarget) : String :=
  match t.angles with
  | none => "None"
  | some a => "Angles(pitch=" ++ a.pitch.text ++ ", yaw=" ++ a.yaw.text ++ ")"

end CheckTarget

end TasScript
