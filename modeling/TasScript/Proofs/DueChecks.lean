import TasScript.Proofs.History
import TasScript.Proofs.Scheduling

/-! The targets that wait in a session over the catalogue. Each is asked for by a line of a check,
so a comparison with the player finds numbers in it wherever it needs them. -/

namespace TasScript

/-- The target of a line consists of doubles, and doubles can always be compared. -/
theorem CheckLine.comparable_target (k : CheckLine) (tick : Int) (config : Config)
    (span : Option Span) (player : Player) : (k.target tick config span).Comparable player where
  position p hp := by
    obtain ⟨q, -, rfl⟩ := Option.map_eq_some_iff.mp hp
    exact ⟨⟨q, rfl⟩, _, rfl⟩
  angles a ha := by
    obtain ⟨b, -, rfl⟩ := Option.map_eq_some_iff.mp ha
    exact ⟨⟨b, rfl⟩, fun _ => ⟨_, rfl⟩⟩

namespace Pending

variable {p : Pending} {t u : CheckTarget} {tick : Int}

/-- Every target is one that a line of a check asks for. -/
def OfLines (p : Pending) : Prop :=
  ∀ t ∈ p, ∃ (k : CheckLine) (tick : Int) (config : Config) (span : Option Span),
    t = k.target tick config span

theorem mem_of_mem_put (h : u ∈ p.put t) : u = t ∨ u ∈ p := by
  induction p with
  | nil => exact .inl (List.mem_singleton.mp h)
  | cons v p ih =>
    unfold put at h
    split at h
    · exact List.mem_cons.mp h
    · split at h
      · exact (List.mem_cons.mp h).imp_right (List.mem_cons_of_mem v)
      · rcases List.mem_cons.mp h with rfl | h
        · exact .inr List.mem_cons_self
        · exact (ih h).imp_right (List.mem_cons_of_mem v)

theorem OfLines.put (hp : p.OfLines) (k : CheckLine) (tick : Int) (config : Config)
    (span : Option Span) : (p.put (k.target tick config span)).OfLines := by
  intro u hu
  rcases mem_of_mem_put hu with rfl | hu
  · exact ⟨k, tick, config, span, rfl⟩
  · exact hp u hu

theorem OfLines.comparable (hp : p.OfLines) (hdue : p.at? tick = some t) (player : Player) :
    t.Comparable player := by
  obtain ⟨k, tick, config, span, rfl⟩ := hp t (List.mem_of_find?_eq_some hdue)
  exact k.comparable_target tick config span player

end Pending

namespace Session

variable {s : Session} {tokens : List Token} {q : Schema} {m : Match}

/-- The checks of the catalogue are matched as one of their lines. -/
theorem Accepts.checkLine (hr : s.registry = .builtIn) (hacc : s.Accepts tokens q m)
    (hcheck : m.tool = Coordinator.checkTool) :
    ∃ (k : CheckLine) (span : Option Span),
      m = ⟨Coordinator.checkTool, .bound k.cells [], span, some Catalogue.check⟩ := by
  have htool := hacc.tool.symm.trans hcheck
  obtain ⟨first, arguments, rfl, hq, rfl⟩ := hacc.line
  rw [hr] at hq
  obtain ⟨-, hname⟩ := Registry.mem_of_lookup?_builtIn hq
  obtain rfl : q = Catalogue.check := by
    rw [← hname, htool] at hq
    exact (Option.some.inj hq).symm
  obtain ⟨k, hk⟩ := CheckLine.succeeded_iff.mp hacc.succeeded
  exact ⟨k, _, hk.matchTokens (some first)⟩

theorem Standard.ofLines_perform (hs : s.Standard) (hp : s.checks.pending.OfLines) (c : Call) :
    (s.perform c).session.checks.pending.OfLines := by
  cases c with
  | invoke tokens tick =>
    change (s.invoke tokens tick).session.checks.pending.OfLines
    rcases s.invoke_steps tokens tick with ⟨q, m, hacc, hsession, -⟩ | ⟨hsame, -⟩
    · rw [hsession]
      rcases s.apply_cases tick hacc.succeeded with
        ⟨d, -, happly, -⟩ | ⟨b, -, -, happly, -⟩ | ⟨b, t, -, hcheck, ht, happly, -⟩ |
          ⟨b, d, -, -, -, happly, -⟩
      · rwa [happly]
      · rwa [happly]
      · obtain ⟨k, span, rfl⟩ := hacc.checkLine hs.registry hcheck
        rw [CheckLine.ofMatch_cells] at ht
        obtain rfl := Except.ok.inj ht
        rw [happly]
        exact hp.put k tick s.config span
      · rwa [happly]
    · rwa [hsame]
  | validate tokens =>
    rwa [perform_validate_session]
  | advance => exact hp
  | evaluate tick player =>
    intro t ht
    change t ∈ (s.checks.evaluate tick player).1.pending at ht
    rw [Coordinator.evaluate_pending] at ht
    exact hp t (Pending.mem_remove.mp ht).2
  | restart => exact List.forall_mem_nil _

theorem Standard.ofLines_run (hs : s.Standard) (hp : s.checks.pending.OfLines) (cs : List Call) :
    (s.run cs).checks.pending.OfLines := by
  induction cs generalizing s with
  | nil => exact hp
  | cons c cs ih => exact ih (hs.perform c) (hs.ofLines_perform hp c)

/-- A check that is due can be compared with the player, whatever was called before. -/
theorem comparable_of_run {config : Config} {calls : List Call} {tick : Int} {t : CheckTarget}
    (hdue : Pending.at? tick ((start .builtIn config).run calls).checks.pending = some t)
    (player : Player) : ∃ k, t.compareWith player = .ok k := by
  have hp := (standard_start config).ofLines_run (List.forall_mem_nil _) calls
  exact CheckTarget.comparable_iff.mp (Pending.OfLines.comparable hp hdue player)

end Session

end TasScript
