import TasScript.Check.Coordinator

/-! The requests that a host makes of a coordinator, and runs of them. -/

namespace TasScript

namespace Coordinator

inductive Request where
  | schedule (m : Match) (tick : Int)
  | evaluate (tick : Int) (player : Player)

/-- The coordinator after a request; one to schedule that is refused leaves it as it was. -/
def after (c : Coordinator) : Request → Coordinator
  | .schedule m tick =>
    match c.schedule m tick with
    | .ok (next, _, _) => next
    | .error _ => c
  | .evaluate tick player => (c.evaluate tick player).1

def run (c : Coordinator) : List Request → Coordinator
  | [] => c
  | k :: ks => (c.after k).run ks

theorem run_append (c : Coordinator) (ks ls : List Request) :
    c.run (ks ++ ls) = (c.run ks).run ls := by
  induction ks generalizing c with
  | nil => rfl
  | cons k ks ih => exact ih (c.after k)

end Coordinator

end TasScript
