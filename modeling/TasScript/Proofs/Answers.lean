import TasScript.Proofs.ActiveSet
import TasScript.Proofs.DueChecks

/-! Every call of a session over the catalogue is answered. Whatever a line says, it is matched or
refused, and neither its duration nor its target can fail once its grammar accepts it. -/

namespace TasScript

/-- A line starts with the name of a tool; the other calls have no line. -/
def Call.NamesTool : Call → Prop
  | .invoke tokens _ | .validate tokens => tokens ≠ []
  | _ => True

/-- What a session that is in the state `s` owes a call. -/
inductive Reply.Answers (s : Session) : Call → Reply → Prop
  | invoked {tokens : List Token} {tick : Int} {m : Match} {records : List Record} :
      s.validate tokens = .ok (m, records) → Answers s (.invoke tokens tick) (.matched m)
  | validated {tokens : List Token} {m : Match} {records : List Record} :
      s.validate tokens = .ok (m, records) → Answers s (.validate tokens) (.matched m)
  | advanced {tools : List Tool} :
      (∀ n, n ∈ tools.map (·.name) ↔
        ∃ t, s.active.get? n = some t ∧ t.tickElapsed.remaining = some 0) →
          Answers s .advance (.expired tools)
  | evaluated {tick : Int} {player : Player} {result : Option CheckResult} :
      result.map (·.target) = s.checks.pending.at? (tick + 1) →
        Answers s (.evaluate tick player) (.checked result)
  | restarted : Answers s .restart .restarted

namespace Session

variable {s : Session} {tokens : List Token} {q : Schema} {m : Match}

/-- A grammar of the catalogue accepts no line that then fails. -/
theorem apply_accepted (hr : s.registry = .builtIn) (tick : Int) (hacc : s.Accepts tokens q m) :
    (s.apply m tick).result = .ok m := by
  by_cases hcheck : m.tool = Coordinator.checkTool
  · -- a check needs its target, and its clauses give coordinates and angles together
    obtain ⟨k, span, rfl⟩ := hacc.checkLine hr hcheck
    exact (apply_check s k span tick).1
  · obtain ⟨first, arguments, -, hq, rfl⟩ := hacc.line
    rw [hr] at hq
    obtain ⟨hcat, -⟩ := Registry.mem_of_lookup?_builtIn hq
    obtain ⟨b, hb, -⟩ := ActiveTools.apply_matched s.active tick hcat hacc.succeeded
    rcases s.apply_cases tick hacc.succeeded with
      ⟨d, hd, -⟩ | ⟨-, -, -, -, hok⟩ | ⟨-, -, -, htool, -⟩ | ⟨-, -, -, htool, -⟩
    · simp [hd] at hb
    · exact hok
    · exact absurd htool hcheck
    · exact absurd htool hcheck

theorem invoke_answers (hr : s.registry = .builtIn) (tick : Int) (hne : tokens ≠ []) :
    ∃ m records, s.validate tokens = .ok (m, records) ∧
      (s.invoke tokens tick).result = .ok m := by
  rcases s.invoke_steps tokens tick with ⟨q, m, hacc, -, hresult⟩ | ⟨-, hrefused⟩
  · exact ⟨m, m.records, hacc.validate, hresult.trans (apply_accepted hr tick hacc)⟩
  · rcases hrefused with ⟨hnil, -⟩ | ⟨m, records, hv, -, hok⟩
    · exact absurd hnil hne
    · exact ⟨m, records, hv, hok⟩

/-- What is due is compared with the player, and the result is about it. -/
theorem evaluate_answers (hp : s.checks.pending.OfLines) (tick : Int) (player : Player) :
    ∃ result, (s.evaluate tick player).result = .ok result ∧
      result.map (·.target) = s.checks.pending.at? (tick + 1) := by
  cases hdue : s.checks.pending.at? (tick + 1) with
  | none =>
    have hnone := (s.checks.evaluate_eq_none tick player).mpr hdue
    exact ⟨none, hnone, rfl⟩
  | some t =>
    have hcomparable := hp.comparable hdue player
    obtain ⟨r, hr, rfl⟩ := (s.checks.evaluate_eq_some tick player).mpr ⟨hdue, hcomparable⟩
    exact ⟨some r, hr, rfl⟩

theorem Standard.answers (hs : s.Standard) (hp : s.checks.pending.OfLines) {c : Call}
    (hc : c.NamesTool) : ∃ r, (s.perform c).result = .ok r ∧ r.Answers s c := by
  cases c with
  | invoke tokens tick =>
    obtain ⟨m, records, hv, hresult⟩ := invoke_answers hs.registry tick hc
    exact ⟨.matched m, by simp [Session.perform, hresult, Except.map], .invoked hv⟩
  | validate tokens =>
    -- validating is the first step of invoking, whatever the tick
    obtain ⟨m, records, hv, -⟩ := invoke_answers hs.registry 0 hc
    exact ⟨.matched m, by simp [Session.perform, hv], .validated hv⟩
  | advance =>
    exact ⟨_, rfl, .advanced fun n => hs.sound.mem_expired_iff⟩
  | evaluate tick player =>
    obtain ⟨result, hresult, htarget⟩ := evaluate_answers hp tick player
    exact ⟨.checked result, by simp [Session.perform, hresult, Except.map], .evaluated htarget⟩
  | restart => exact ⟨_, rfl, .restarted⟩

end Session

end TasScript
