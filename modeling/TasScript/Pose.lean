import TasScript.Binary64.Remainder
import TasScript.Binary64.Root

/-! Where a player stands and looks, and how far that is from somewhere else. -/

namespace TasScript

structure Position (α : Type) where
  x : α
  y : α
  z : α
  deriving DecidableEq

structure Angles (α : Type) where
  pitch : α
  yaw : α
  deriving DecidableEq

structure Player where
  position : Position Float
  angles : Angles Float

namespace Position

def map {α β : Type} (f : α → β) (p : Position α) : Position β := ⟨f p.x, f p.y, f p.z⟩

def mapM {m : Type → Type} [Monad m] {α β : Type} (f : α → m β) (p : Position α) :
    m (Position β) := do
  let x ← f p.x
  let y ← f p.y
  let z ← f p.z
  return ⟨x, y, z⟩

def distance (p q : Position Float) : Float := vectorLength [p.x - q.x, p.y - q.y, p.z - q.z]

end Position

/-- Numbers in which the difference of two angles can be taken. -/
class Arc (α : Type) extends Sub α where
  less : α → α → Bool
  fullTurn : α
  /-- The remainder by a full turn, never negative. -/
  wrap : α → α

instance : Arc Float where
  less a b := decide (a < b)
  fullTurn := 360
  wrap x := remainder x 360

/-- Exact arithmetic, beside the rounded one of doubles. -/
instance : Arc Rat where
  less a b := decide (a < b)
  fullTurn := 360
  wrap x := x - 360 * (x / 360).floor

section

variable {α : Type} [Arc α]

/-- The second number only where it is less. -/
def lesser (a b : α) : α := if Arc.less b a then b else a

/-- The second number only where it is greater. -/
def greater (a b : α) : α := if Arc.less a b then b else a

/-- The difference of two angles by the shorter way round. -/
def angleDifference (a b : α) : α :=
  let turn := Arc.wrap (a - b)
  lesser turn (Arc.fullTurn - turn)

end

namespace Angles

def map {α β : Type} (f : α → β) (a : Angles α) : Angles β := ⟨f a.pitch, f a.yaw⟩

def mapM {m : Type → Type} [Monad m] {α β : Type} (f : α → m β) (a : Angles α) :
    m (Angles β) := do
  let pitch ← f a.pitch
  let yaw ← f a.yaw
  return ⟨pitch, yaw⟩

/-- The larger of the two differences. -/
def difference {α : Type} [Arc α] (a b : Angles α) : α :=
  greater (angleDifference a.pitch b.pitch) (angleDifference a.yaw b.yaw)

end Angles

end TasScript
