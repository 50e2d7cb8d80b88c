import TasScript.Session.Basic

/-! The calls that a host makes of a session, and runs of them. -/

namespace TasScript

inductive Call where
  | invoke (tokens : List Token) (tick : Int)
  | validate (tokens : List Token)
  | advance
  | evaluate (tick : Int) (player : Player)
  | restart

inductive Reply where
  | matched (m : Match)
  | expired (tools : List Tool)
  | checked (result : Option CheckResult)
  | restarted

namespace Session

def perform (s : Session) : Call → Step Reply
  | .invoke tokens tick =>
    let step := s.invoke tokens tick
    ⟨step.session, step.result.map .matched, step.records⟩
  | .validate tokens =>
    match s.validate tokens with
    | .ok (m, records) => ⟨s, .ok (.matched m), records⟩
    | .error d => ⟨s, .error d, []⟩
  | .advance =>
    let (next, tools, records) := s.advance
    ⟨next, .ok (.expired tools), records⟩
  | .evaluate tick player =>
    let step := s.evaluate tick player
    ⟨step.session, step.result.map .checked, step.records⟩
  | .restart =>
    let (next, records) := s.restart
    ⟨next, .ok .restarted, records⟩

theorem perform_validate_session (s : Session) (tokens : List Token) :
    (s.perform (.validate tokens)).session = s := by
  unfold perform
  dsimp only
  split <;> rfl

/-- The session after a run of calls. -/
def run (s : Session) : List Call → Session
  | [] => s
  | c :: cs => (s.perform c).session.run cs

/-- The replies of a run of calls, refusals among them. -/
def replies (s : Session) : List Call → List (Except Defect Reply)
  | [] => []
  | c :: cs => (s.perform c).result :: (s.perform c).session.replies cs

end Session

end TasScript
