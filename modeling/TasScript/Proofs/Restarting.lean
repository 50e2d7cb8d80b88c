import TasScript.Proofs.Replays

/-! What a restart leaves behind. The session goes on as a new one over the same registry and
settings of whose budget as many replays were spent; only the number of the run differs. -/

namespace TasScript

namespace Session

variable {s : Session} {registry : Registry} {config : Config}

/-- A new session of whose budget `used` replays were spent before. -/
def startSpent (registry : Registry) (config : Config) (used : Nat) : Session :=
  let first := start registry config
  { first with checks := { first.checks with budget := { first.budget with used } } }

/-- The session with `runs` more runs counted before it. -/
def later (s : Session) (runs : Nat) : Session := { s with runCount := s.runCount + runs }

def Step.later {α : Type} (step : Step α) (runs : Nat) : Step α :=
  { step with session := step.session.later runs }

theorem apply_later (s : Session) (runs : Nat) (m : Match) (tick : Int) :
    (s.later runs).apply m tick = (s.apply m tick).later runs := by
  have hactive : (s.later runs).active.apply m tick = s.active.apply m tick := rfl
  have hchecks : (s.later runs).checks.schedule m tick = s.checks.schedule m tick := rfl
  unfold apply
  rw [hactive]
  cases s.active.apply m tick with
  | error d => rfl
  | ok applied =>
    by_cases hm : m.tool = Coordinator.checkTool
    · simp only [if_pos hm, hchecks]
      cases s.checks.schedule m tick with
      | error d => rfl
      | ok c => rfl
    · simp only [if_neg hm]
      rfl

theorem invoke_later (s : Session) (runs : Nat) (tokens : List Token) (tick : Int) :
    (s.later runs).invoke tokens tick = (s.invoke tokens tick).later runs := by
  have hvalidate : (s.later runs).validate tokens = s.validate tokens := by
    cases tokens <;> rfl
  unfold invoke
  rw [hvalidate]
  cases s.validate tokens with
  | error d => rfl
  | ok read =>
    by_cases hok : read.1.succeeded = true
    · simp only [if_pos hok, apply_later]
      rfl
    · simp only [if_neg hok]
      rfl

/-- The runs counted before show in the record of a restart, and nowhere else. -/
def recordsLater (runs : Nat) (step : Step Reply) : Call → List Record
  | .restart => [restartRecord (step.session.later runs)]
  | _ => step.records

theorem perform_later (s : Session) (runs : Nat) (c : Call) :
    (s.later runs).perform c =
      { (s.perform c).later runs with records := recordsLater runs (s.perform c) c } := by
  cases c with
  | invoke tokens tick =>
    simp only [perform, invoke_later]
    rfl
  | validate tokens =>
    have hvalidate : (s.later runs).validate tokens = s.validate tokens := by
      cases tokens <;> rfl
    simp only [perform, hvalidate]
    cases s.validate tokens <;> rfl
  | advance => rfl
  | evaluate tick player => rfl
  | restart =>
    have hcount : s.runCount + runs + 1 = s.runCount + 1 + runs := by omega
    simp only [perform, restart, later, Step.later, recordsLater, hcount]

theorem run_later (s : Session) (runs : Nat) (cs : List Call) :
    (s.later runs).run cs = (s.run cs).later runs := by
  induction cs generalizing s with
  | nil => rfl
  | cons c cs ih =>
    rw [run, perform_later]
    exact ih (s.perform c).session

theorem replies_later (s : Session) (runs : Nat) (cs : List Call) :
    (s.later runs).replies cs = s.replies cs := by
  induction cs generalizing s with
  | nil => rfl
  | cons c cs ih =>
    rw [replies, perform_later]
    exact congrArg ((s.perform c).result :: ·) (ih (s.perform c).session)

theorem apply_settings (s : Session) (m : Match) (tick : Int) (hok : m.succeeded = true) :
    (s.apply m tick).session.registry = s.registry ∧
      (s.apply m tick).session.config = s.config := by
  rcases s.apply_cases tick hok with
    ⟨d, -, hs, -⟩ | ⟨b, -, -, hs, -⟩ | ⟨b, t, -, -, -, hs, -⟩ | ⟨b, d, -, -, -, hs, -⟩ <;>
    rw [hs] <;> exact ⟨rfl, rfl⟩

theorem perform_settings (s : Session) (c : Call) :
    (s.perform c).session.registry = s.registry ∧ (s.perform c).session.config = s.config := by
  cases c with
  | invoke tokens tick =>
    change (s.invoke tokens tick).session.registry = s.registry ∧
      (s.invoke tokens tick).session.config = s.config
    rcases s.invoke_steps tokens tick with ⟨q, m, hacc, hsession, -⟩ | ⟨hsame, -⟩
    · rw [hsession]
      exact s.apply_settings m tick hacc.succeeded
    · rw [hsame]
      exact ⟨rfl, rfl⟩
  | validate tokens =>
    rw [perform_validate_session]
    exact ⟨rfl, rfl⟩
  | advance => exact ⟨rfl, rfl⟩
  | evaluate tick player => exact ⟨rfl, s.checks.evaluate_config tick player⟩
  | restart => exact ⟨rfl, rfl⟩

theorem run_settings (s : Session) (cs : List Call) :
    (s.run cs).registry = s.registry ∧ (s.run cs).config = s.config := by
  induction cs generalizing s with
  | nil => exact ⟨rfl, rfl⟩
  | cons c cs ih =>
    obtain ⟨hregistry, hconfig⟩ := s.perform_settings c
    obtain ⟨hregistry', hconfig'⟩ := ih (s.perform c).session
    exact ⟨hregistry'.trans hregistry, hconfig'.trans hconfig⟩

theorem restart_eq (hregistry : s.registry = registry) (hconfig : s.config = config)
    (hlimit : s.budget.limit = config.maxReplays) :
    s.restart.1 = (startSpent registry config s.budget.used).later s.runCount := by
  have hbudget : s.checks.budget = { limit := config.maxReplays, used := s.budget.used } := by
    rw [← hlimit]
    rfl
  have hcount : s.runCount + 1 = 1 + s.runCount := Nat.add_comm _ _
  have hchecks : s.checks.restart =
      { config, budget := { limit := config.maxReplays, used := s.budget.used } } := by
    rw [Coordinator.restart, hbudget, ← hconfig]
    rfl
  simp only [restart, hregistry, hchecks, hcount]
  rfl

/-- A restarted session and a new one with its spent budget answer every run of calls alike and
stand alike after it. They leave the same records but for the number of the run in a restart. -/
theorem restart_starts_afresh (registry : Registry) (config : Config) (calls cs : List Call) :
    let s := (start registry config).run calls
    let fresh := startSpent registry config s.budget.used
    let p := s.restart.1.run cs
    let q := fresh.run cs
    s.budget.used ≤ config.maxReplays ∧
      s.restart.1.replies cs = fresh.replies cs ∧
      p.registry = q.registry ∧ p.active = q.active ∧ p.checks = q.checks ∧
      p.runCount = q.runCount + s.runCount ∧
      (∀ c, c ≠ .restart → (p.perform c).records = (q.perform c).records) ∧
      (q.perform .restart).records = [restartRecord q.restart.1] ∧
      (p.perform .restart).records = [restartRecord (q.restart.1.later s.runCount)] := by
  intro s fresh p q
  have hfirst : (start registry config).budget = .after config.maxReplays 0 := by
    simp [start, budget, ReplayBudget.after]
  have hbudget : s.budget = .after config.maxReplays (0 + (start registry config).failures calls) :=
    run_budget hfirst calls
  obtain ⟨hregistry, hconfig⟩ := (start registry config).run_settings calls
  have hstart : s.restart.1 = fresh.later s.runCount :=
    restart_eq hregistry hconfig (by rw [hbudget]; rfl)
  have hrun : p = q.later s.runCount :=
    (congrArg (run · cs) hstart).trans (fresh.run_later s.runCount cs)
  refine ⟨?_, ?_, ?_⟩
  · rw [hbudget]
    exact Nat.min_le_left _ _
  · rw [hstart, replies_later]
  · rw [hrun]
    refine ⟨rfl, rfl, rfl, rfl, fun c hc => ?_, rfl, ?_⟩
    · rw [perform_later]
      cases c with
      | restart => exact absurd rfl hc
      | invoke tokens tick => rfl
      | validate tokens => rfl
      | advance => rfl
      | evaluate tick player => rfl
    · rw [perform_later]
      rfl

end Session

end TasScript
