import TasScript.ActiveTools

/-! The operations that a host performs on the running tools, and runs of them with the log they
leave. -/

namespace TasScript

namespace ActiveTools

inductive Operation where
  | apply (m : Match) (tick : Int)
  | advance

/-- The running tools after an operation, and what it has logged. A match that starts no tool
because its duration is refused changes nothing. -/
def perform (a : ActiveTools) : Operation → ActiveTools × List ToolEvent
  | .apply m tick =>
    match a.apply m tick with
    | .ok b => (b.active, b.events)
    | .error _ => (a, [])
  | .advance => (a.advance.1, a.advance.2.2)

def run (a : ActiveTools) : List Operation → ActiveTools
  | [] => a
  | o :: os => (a.perform o).1.run os

def log (a : ActiveTools) : List Operation → List ToolEvent
  | [] => []
  | o :: os => (a.perform o).2 ++ (a.perform o).1.log os

end ActiveTools

end TasScript
