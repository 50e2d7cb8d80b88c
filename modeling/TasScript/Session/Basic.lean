import TasScript.ActiveTools
import TasScript.Check.Coordinator
import TasScript.Registry

/-! The run of one script: invocations are matched and applied, ticks count durations down, and
checks are compared with the player. -/

namespace TasScript

structure Session where
  registry : Registry
  active : ActiveTools := {}
  checks : Coordinator
  runCount : Nat := 1

/-- A session after one call, with what the call gave and the records it left. -/
structure Session.Step (α : Type) where
  session : Session
  result : Except Defect α
  records : List Record := []

namespace Session

def config (s : Session) : Config := s.checks.config

def budget (s : Session) : ReplayBudget := s.checks.budget

def start (registry : Registry) (config : Config) : Session :=
  { registry, checks := { config, budget := { limit := config.maxReplays } } }

end Session

/-- The record of a match that was refused by its grammar. -/
def Match.records (m : Match) : List Record :=
  match m.refusal? with
  | none => []
  | some r =>
    [⟨.debug, Log.matcher, "Match failed | tool=" ++ m.tool ++ " | " ++ r.kind.name ++ " | " ++
      r.message⟩]

namespace Session

/-- Matches a line that starts with the name of a tool. -/
def validate (s : Session) : List Token → Except Defect (Match × List Record)
  | [] => .error .noTokens
  | name :: arguments =>
    match s.registry.lookup? name.text with
    | some schema =>
      let m := schema.matchTokens arguments (some name)
      .ok (m, m.records)
    | none =>
      let refusal : Refusal :=
        ⟨.unknownTool, "unknown tool '" ++ name.text ++ "'", some name.span⟩
      .ok (⟨name.text, .refused refusal, some name.span, none⟩, [])

def matchRecord (m : Match) (tick : Int) : Record :=
  let details := match m.verdict with
    | .refused r => some r.text
    | .off => some "off"
    | .bound _ _ => none
  Log.invocation Log.session tick m.tool m.succeeded details

/-- Puts a match to work. A check whose target cannot be read is refused after its tool was
started. -/
def apply (s : Session) (m : Match) (tick : Int) : Step Match :=
  match s.active.apply m tick with
  | .error d => { session := s, result := .error d }
  | .ok applied =>
    let started := { s with active := applied.active }
    if m.tool = Coordinator.checkTool then
      match s.checks.schedule m tick with
      | .error d =>
        { session := started, result := .error d, records := applied.events.map (·.record) }
      | .ok (checks, _, records) =>
        { session := { started with checks }, result := .ok m,
          records := applied.events.map (·.record) ++ records }
    else { session := started, result := .ok m, records := applied.events.map (·.record) }

/-- A refused match concerns its own line only. -/
def invoke (s : Session) (tokens : List Token) (tick : Int) : Step Match :=
  match s.validate tokens with
  | .error d => { session := s, result := .error d }
  | .ok (m, records) =>
    let seen := records ++ [matchRecord m tick]
    if m.succeeded then
      let step := s.apply m tick
      { step with records := seen ++ step.records }
    else { session := s, result := .ok m, records := seen }

def advance (s : Session) : Session × List Tool × List Record :=
  let (active, expired, events) := s.active.advance
  let summary :=
    if expired.isEmpty then []
    else
      let names := ", ".intercalate (expired.map (·.name))
      [Log.tick Log.session active.tick "EXPIRED" (some names)]
  ({ s with active }, expired, events.map (·.record) ++ summary)

def exhaustedRecord (b : ReplayBudget) (r : CheckResult) : Record :=
  ⟨.warning, Log.session, "Check on tick " ++ toString r.target.tick ++
    " failed with no replays left (" ++ toString b.used ++ "/" ++ toString b.limit ++
    "); continuing"⟩

def evaluate (s : Session) (tick : Int) (player : Player) : Step (Option CheckResult) :=
  let (checks, result, records) := s.checks.evaluate tick player
  let warnings := match result with
    | .ok (some r) => if r.outcome = .replayExhausted then [exhaustedRecord checks.budget r] else []
    | _ => []
  { session := { s with checks }, result, records := records ++ warnings }

def restartRecord (s : Session) : Record :=
  ⟨.info, Log.session, "Script restarted | run=" ++ toString s.runCount ++ " | replays_used=" ++
    toString s.budget.used⟩

/-- Running tools and waiting checks are dropped; the budget is kept. -/
def restart (s : Session) : Session × List Record :=
  let fresh := { s with active := {}, checks := s.checks.restart, runCount := s.runCount + 1 }
  (fresh, [restartRecord fresh])

end Session

end TasScript
