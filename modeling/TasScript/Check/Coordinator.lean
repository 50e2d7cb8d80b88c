import TasScript.Check.Target
import TasScript.Log

/-! Checks that wait for their tick, and the replays that failed ones may ask for. A check is
evaluated once, on the tick before its own. -/

namespace TasScript

structure ReplayBudget where
  limit : Nat
  used : Nat := 0
  deriving Repr, DecidableEq

namespace ReplayBudget

def ofLimit (limit : Int) : Except Defect ReplayBudget :=
  if limit < 0 then .error (.negativeBudget limit) else .ok ⟨limit.toNat, 0⟩

def exhausted (b : ReplayBudget) : Bool := decide (b.limit ≤ b.used)

def remaining (b : ReplayBudget) : Nat := b.limit - b.used

/-- Spends one replay where one is left. -/
def consume (b : ReplayBudget) : ReplayBudget × Bool :=
  if b.exhausted then (b, false) else ({ b with used := b.used + 1 }, true)

end ReplayBudget

inductive CheckOutcome where
  | pass
  | replayRequested
  | replayExhausted
  deriving Repr, DecidableEq

namespace CheckOutcome

def name : CheckOutcome → String
  | pass => "pass"
  | replayRequested => "replay_requested"
  | replayExhausted => "replay_exhausted"

end CheckOutcome

structure CheckResult where
  outcome : CheckOutcome
  target : CheckTarget
  replaysUsed : Nat
  positionError : Option Float
  angleError : Option Float
  deriving DecidableEq

/-- At most one target for each tick, in the order of ticks. -/
abbrev Pending : Type := List CheckTarget

namespace Pending

/-- A later target takes the place of an earlier one for the same tick. -/
def put (t : CheckTarget) : Pending → Pending
  | [] => [t]
  | u :: us =>
    if t.tick < u.tick then t :: u :: us
    else if t.tick = u.tick then t :: us
    else u :: put t us

def at? (tick : Int) (p : Pending) : Option CheckTarget := p.find? fun t => t.tick == tick

def remove (tick : Int) (p : Pending) : Pending := p.filter fun t => t.tick != tick

end Pending

structure Coordinator where
  config : Config
  budget : ReplayBudget
  pending : Pending := []

namespace Coordinator

def checkTool : String := "check"

def scheduledRecord (t : CheckTarget) : Record :=
  ⟨.debug, Log.checks, "TICK " ++ Log.tickText t.tick ++ " | CHECK | scheduled | pos=" ++
    t.positionText ++ " ang=" ++ t.anglesText⟩

/-- Nothing changes where the match is no check or lacks a part of its target. -/
def schedule (c : Coordinator) (m : Match) (tick : Int) :
    Except Defect (Coordinator × CheckTarget × List Record) :=
  if m.succeeded && m.tool == checkTool then
    match CheckTarget.ofMatch m tick c.config with
    | .ok t => .ok ({ c with pending := Pending.put t c.pending }, t, [scheduledRecord t])
    | .error d => .error d
  else .error (.notACheck m.tool)

def errorText : Option Float → String
  | none => "None"
  | some e => exactText e

def evaluatedRecord (tick : Int) (r : CheckResult) : Record :=
  Log.check Log.checks tick r.outcome.name r.replaysUsed
    (some ("pos_error=" ++ errorText r.positionError ++ " ang_error=" ++ errorText r.angleError))

/-- A failed check spends a replay where one is left. -/
def settle (b : ReplayBudget) (met : Bool) : ReplayBudget × CheckOutcome :=
  if met then (b, .pass)
  else
    match b.consume with
    | (spent, true) => (spent, .replayRequested)
    | (spent, false) => (spent, .replayExhausted)

/-- What comes of a comparison with the target. -/
def judge (b : ReplayBudget) (t : CheckTarget) (k : Comparison) : ReplayBudget × CheckResult :=
  let (budget, outcome) := settle b k.isMet
  (budget, ⟨outcome, t, budget.used, k.positionError, k.angleError⟩)

/-- The target of the next tick is taken out and judged. It is taken out first, so it is gone even
where it cannot be compared with the player. -/
def evaluate (c : Coordinator) (tick : Int) (player : Player) :
    Coordinator × Except Defect (Option CheckResult) × List Record :=
  match Pending.at? (tick + 1) c.pending with
  | none => (c, .ok none, [])
  | some t =>
    let left := { c with pending := Pending.remove (tick + 1) c.pending }
    match t.compareWith player with
    | .error d => (left, .error d, [])
    | .ok k =>
      let (budget, r) := judge c.budget t k
      ({ left with budget }, .ok (some r), [evaluatedRecord tick r])

section

variable {c : Coordinator} {tick : Int} {player : Player} {t : CheckTarget}

theorem evaluate_of_none (h : Pending.at? (tick + 1) c.pending = none) :
    c.evaluate tick player = (c, .ok none, []) := by
  unfold evaluate
  rw [h]

theorem evaluate_of_error {d : Defect} (h : Pending.at? (tick + 1) c.pending = some t)
    (hd : t.compareWith player = .error d) :
    c.evaluate tick player =
      ({ c with pending := Pending.remove (tick + 1) c.pending }, .error d, []) := by
  unfold evaluate
  rw [h]
  dsimp only
  rw [hd]

theorem evaluate_of_ok {k : Comparison} (h : Pending.at? (tick + 1) c.pending = some t)
    (hk : t.compareWith player = .ok k) :
    c.evaluate tick player =
      ({ c with budget := (judge c.budget t k).1, pending := Pending.remove (tick + 1) c.pending },
        .ok (some (judge c.budget t k).2), [evaluatedRecord tick (judge c.budget t k).2]) := by
  unfold evaluate
  rw [h]
  dsimp only
  rw [hk]

/-- Nothing is due, or a target that cannot be compared with the player, or one that is judged. -/
theorem evaluate_cases (c : Coordinator) (tick : Int) (player : Player) :
    (Pending.at? (tick + 1) c.pending = none ∧ c.evaluate tick player = (c, .ok none, [])) ∨
      (∃ t d, Pending.at? (tick + 1) c.pending = some t ∧ t.compareWith player = .error d ∧
        c.evaluate tick player =
          ({ c with pending := Pending.remove (tick + 1) c.pending }, .error d, [])) ∨
      ∃ t k, Pending.at? (tick + 1) c.pending = some t ∧ t.compareWith player = .ok k ∧
        c.evaluate tick player =
          ({ c with
              budget := (judge c.budget t k).1
              pending := Pending.remove (tick + 1) c.pending },
            .ok (some (judge c.budget t k).2),
            [evaluatedRecord tick (judge c.budget t k).2]) := by
  cases hdue : Pending.at? (tick + 1) c.pending with
  | none => exact .inl ⟨rfl, evaluate_of_none hdue⟩
  | some t =>
    cases hk : t.compareWith player with
    | error d => exact .inr (.inl ⟨t, d, rfl, hk, evaluate_of_error hdue hk⟩)
    | ok k => exact .inr (.inr ⟨t, k, rfl, hk, evaluate_of_ok hdue hk⟩)

end

/-- A replay keeps the settings and the budget. -/
def restart (c : Coordinator) : Coordinator := { c with pending := [] }

end Coordinator

end TasScript
