import TasScript.Proofs.Judgement
import TasScript.Proofs.Waiting
import TasScript.Session.Basic

/-! The steps of one invocation. A line is refused, or its match goes to the running tools and,
where it is a check, to the targets that wait. -/

namespace TasScript

/-- What an accepted match does is settled by the match, whatever runs: its tool is turned off, or
stops all tools, or is started, or is none that keeps running. -/
theorem ActiveTools.apply_settled (tick : Int) {m : Match} {q : Schema} (hq : m.schema = some q)
    (hok : m.succeeded = true) :
    m.isOff = true ∧ (∀ a : ActiveTools, a.apply m tick = .ok (a.turnOff q tick)) ∨
      m.isOff = false ∧ q.stopsAllTools = true ∧
        (∀ a : ActiveTools, a.apply m tick = .ok (a.stopAll q tick)) ∨
      m.isOff = false ∧ q.stopsAllTools = false ∧ q.registersActiveState = true ∧
        (∀ a : ActiveTools,
          a.apply m tick = (toolOf q m tick).map (fun t => a.start q t tick)) ∨
      m.isOff = false ∧ q.stopsAllTools = false ∧ q.registersActiveState = false ∧
        ∀ a : ActiveTools, a.apply m tick = .ok { active := a } := by
  unfold apply
  rw [hq]
  cases hv : m.verdict with
  | refused r => simp [Match.succeeded, hv] at hok
  | off => exact .inl ⟨by simp [Match.isOff, hv], fun a => rfl⟩
  | bound values extra =>
    have hoff : m.isOff = false := by simp [Match.isOff, hv]
    refine .inr ?_
    cases hstop : q.stopsAllTools with
    | true => exact .inl ⟨hoff, rfl, by simp [hstop]⟩
    | false =>
      refine .inr ?_
      cases hreg : q.registersActiveState with
      | true =>
        refine .inl ⟨hoff, rfl, rfl, fun a => ?_⟩
        simp only [hstop, hreg, Bool.false_eq_true, if_false, if_true]
        cases toolOf q m tick <;> rfl
      | false => exact .inr ⟨hoff, rfl, rfl, by simp [hstop, hreg]⟩

theorem ActiveTools.apply_cases (a : ActiveTools) (tick : Int) {m : Match} {q : Schema}
    (hq : m.schema = some q) (hok : m.succeeded = true) :
    m.isOff = true ∧ a.apply m tick = .ok (a.turnOff q tick) ∨
      m.isOff = false ∧ q.stopsAllTools = true ∧ a.apply m tick = .ok (a.stopAll q tick) ∨
      m.isOff = false ∧ q.stopsAllTools = false ∧ q.registersActiveState = true ∧
        a.apply m tick = (toolOf q m tick).map (fun t => a.start q t tick) ∨
      m.isOff = false ∧ q.stopsAllTools = false ∧ q.registersActiveState = false ∧
        a.apply m tick = .ok { active := a } := by
  rcases apply_settled tick hq hok with
    ⟨hoff, happly⟩ | ⟨hoff, hstop, happly⟩ | ⟨hoff, hgo, hreg, happly⟩ | ⟨hoff, hgo, hnot, happly⟩
  · exact .inl ⟨hoff, happly a⟩
  · exact .inr (.inl ⟨hoff, hstop, happly a⟩)
  · exact .inr (.inr (.inl ⟨hoff, hgo, hreg, happly a⟩))
  · exact .inr (.inr (.inr ⟨hoff, hgo, hnot, happly a⟩))

namespace Session

variable {s : Session} {tokens : List Token} {q : Schema} {m : Match}

/-- The grammar `q` of the line's tool accepts the line as `m`. -/
structure Accepts (s : Session) (tokens : List Token) (q : Schema) (m : Match) : Prop where
  line : ∃ first arguments, tokens = first :: arguments ∧
    s.registry.lookup? first.text = some q ∧ m = q.matchTokens arguments (some first)
  succeeded : m.succeeded = true

theorem Accepts.validate (h : s.Accepts tokens q m) : s.validate tokens = .ok (m, m.records) := by
  obtain ⟨first, arguments, rfl, hq, rfl⟩ := h.line
  simp only [Session.validate, hq]

theorem Accepts.schema (h : s.Accepts tokens q m) : m.schema = some q := by
  obtain ⟨first, arguments, -, -, rfl⟩ := h.line
  exact q.matchTokens_schema arguments (some first)

theorem Accepts.tool (h : s.Accepts tokens q m) : m.tool = q.name := by
  obtain ⟨first, arguments, -, -, rfl⟩ := h.line
  exact q.matchTokens_tool arguments (some first)

/-- What applying an accepted match comes to: its tool cannot be started; or it is no check, or a
check whose target then waits, or a check whose target cannot be read. -/
theorem apply_cases (s : Session) (tick : Int) (hok : m.succeeded = true) :
    (∃ d, s.active.apply m tick = .error d ∧ (s.apply m tick).session = s ∧
        (s.apply m tick).result = .error d) ∨
      (∃ b, s.active.apply m tick = .ok b ∧ m.tool ≠ Coordinator.checkTool ∧
        (s.apply m tick).session = { s with active := b.active } ∧
          (s.apply m tick).result = .ok m) ∨
      (∃ b t, s.active.apply m tick = .ok b ∧ m.tool = Coordinator.checkTool ∧
        CheckTarget.ofMatch m tick s.config = .ok t ∧
          (s.apply m tick).session =
            { s with
              active := b.active
              checks := { s.checks with pending := s.checks.pending.put t } } ∧
          (s.apply m tick).result = .ok m) ∨
      ∃ b d, s.active.apply m tick = .ok b ∧ m.tool = Coordinator.checkTool ∧
        CheckTarget.ofMatch m tick s.config = .error d ∧
          (s.apply m tick).session = { s with active := b.active } ∧
          (s.apply m tick).result = .error d := by
  unfold apply
  cases ha : s.active.apply m tick with
  | error d => exact .inl ⟨d, rfl, rfl, rfl⟩
  | ok b =>
    refine .inr ?_
    dsimp only
    by_cases htool : m.tool = Coordinator.checkTool
    · rw [if_pos htool, s.checks.schedule_check tick hok htool]
      cases ht : CheckTarget.ofMatch m tick s.checks.config with
      | ok t => exact .inr (.inl ⟨b, t, rfl, htool, ht, rfl, rfl⟩)
      | error d => exact .inr (.inr ⟨b, d, rfl, htool, ht, rfl, rfl⟩)
    · rw [if_neg htool]
      exact .inl ⟨b, rfl, htool, rfl, rfl⟩

/-- A line is accepted and applied, or it is refused and nothing happens. -/
theorem invoke_steps (s : Session) (tokens : List Token) (tick : Int) :
    (∃ q m, s.Accepts tokens q m ∧ (s.invoke tokens tick).session = (s.apply m tick).session ∧
        (s.invoke tokens tick).result = (s.apply m tick).result) ∨
      (s.invoke tokens tick).session = s ∧
        (tokens = [] ∧ (s.invoke tokens tick).result = .error .noTokens ∨
          ∃ m records, s.validate tokens = .ok (m, records) ∧ m.succeeded = false ∧
            (s.invoke tokens tick).result = .ok m) := by
  cases tokens with
  | nil => exact .inr ⟨rfl, .inl ⟨rfl, rfl⟩⟩
  | cons first arguments =>
    cases hq : s.registry.lookup? first.text with
    | none =>
      refine .inr ?_
      simp [invoke, validate, hq, Match.succeeded]
    | some q =>
      by_cases hok : (q.matchTokens arguments (some first)).succeeded = true
      · refine .inl ⟨q, _, ⟨⟨first, arguments, rfl, hq, rfl⟩, hok⟩, ?_, ?_⟩
        · simp [invoke, validate, hq, hok]
        · simp [invoke, validate, hq, hok]
      · refine .inr ?_
        simp [invoke, validate, hq, hok]

end Session

end TasScript
