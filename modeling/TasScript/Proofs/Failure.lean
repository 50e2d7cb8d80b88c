import TasScript.Proofs.Invoking

/-! What a failed invocation leaves behind. A session is left as it was, except where a check was
put among the running tools, or stopped them, before its target turned out to lack a part. -/

namespace TasScript

namespace Match

variable {m : Match}

theorem named_of_off (h : m.verdict = .off) : m.named = [] := by
  have hblank : ∀ v ∈ m.values, v = none := by
    intro v hv
    simp only [values, h] at hv
    exact List.eq_of_mem_replicate hv
  unfold named
  cases m.schema with
  | none => rfl
  | some s =>
    dsimp only
    generalize m.values = values at hblank
    generalize s.slots = slots
    induction slots generalizing values with
    | nil => rfl
    | cons slot slots ih =>
      cases values with
      | nil => rfl
      | cons v values =>
        obtain rfl : v = none := hblank v List.mem_cons_self
        have hrest := ih values fun w hw => hblank w (List.mem_cons_of_mem _ hw)
        cases hk : slot.key <;> simpa [hk] using hrest

/-- A match that turns its tool off asks for nothing, so its target can always be read. -/
theorem isOff_of_ofMatch_error {tick : Int} {config : Config} {d : Defect}
    (h : CheckTarget.ofMatch m tick config = .error d) : m.isOff = false := by
  cases hv : m.verdict with
  | off =>
    unfold CheckTarget.ofMatch at h
    rw [named_of_off hv] at h
    exact nomatch h
  | _ => simp [isOff, hv]

end Match

namespace ActiveTools

variable {a : ActiveTools} {m : Match} {q : Schema} {tick : Int} {b : Applied}

theorem apply_of_bound (hq : m.schema = some q) (hok : m.succeeded = true) (hoff : m.isOff = false)
    (hb : a.apply m tick = .ok b) :
    q.stopsAllTools = true ∧ b.active = a.clear ∨
      q.stopsAllTools = false ∧ q.registersActiveState = true ∧
        (∃ t, toolOf q m tick = .ok t ∧ b.active = { a with tools := a.tools.set q.name t }) ∨
      b.active = a := by
  rcases a.apply_cases tick hq hok with
    ⟨ho, -⟩ | ⟨-, hstop, happly⟩ | ⟨-, hgo, hreg, happly⟩ | ⟨-, -, -, happly⟩
  · simp [hoff] at ho
  · obtain rfl := Except.ok.inj (happly.symm.trans hb)
    exact .inl ⟨hstop, rfl⟩
  · rw [happly] at hb
    cases ht : toolOf q m tick with
    | error d =>
      rw [ht] at hb
      exact nomatch hb
    | ok t =>
      rw [ht] at hb
      obtain rfl := Except.ok.inj hb
      exact .inr (.inl ⟨hgo, hreg, t, rfl, rfl⟩)
  · obtain rfl := Except.ok.inj (happly.symm.trans hb)
    exact .inr (.inr rfl)

end ActiveTools

namespace Session

/-- The line is a check that its grammar accepts, and whose target cannot be read. -/
structure Unreadable (s : Session) (tokens : List Token) (tick : Int) (d : Defect) (q : Schema)
    (m : Match) : Prop where
  accepts : s.Accepts tokens q m
  check : q.name = Coordinator.checkTool
  isOff : m.isOff = false
  target : CheckTarget.ofMatch m tick s.config = .error d

/-- A session is as before a failed invocation, unless that was a check whose grammar stops all
tools or keeps running: then this has already been done. -/
theorem unchanged_of_failed_invoke (s : Session) (tokens : List Token) (tick : Int) (d : Defect)
    (h : (s.invoke tokens tick).result = .error d) :
    let left := (s.invoke tokens tick).session
    left.registry = s.registry ∧ left.checks = s.checks ∧ left.runCount = s.runCount ∧
      left.active.tick = s.active.tick ∧
      (left.active = s.active ∨ ∃ q m, s.Unreadable tokens tick d q m ∧
        (q.stopsAllTools = true ∧ left.active = s.active.clear ∨
          q.stopsAllTools = false ∧ q.registersActiveState = true ∧
            ∃ t, ActiveTools.toolOf q m tick = .ok t ∧
              left.active = { s.active with tools := s.active.tools.set q.name t })) := by
  intro left
  rcases s.invoke_steps tokens tick with ⟨q, m, hacc, hsession, hresult⟩ | ⟨hsame, -⟩
  · have hleft : left = (s.apply m tick).session := hsession
    rw [hresult] at h
    rcases s.apply_cases tick hacc.succeeded with
      ⟨e, -, hsame, -⟩ | ⟨b, -, -, -, hfine⟩ | ⟨b, t, -, -, -, -, hfine⟩ |
        ⟨b, e, hb, htool, htarget, happlied, he⟩
    · rw [hleft, hsame]
      exact ⟨rfl, rfl, rfl, rfl, .inl rfl⟩
    · simp [hfine] at h
    · simp [hfine] at h
    · obtain rfl : e = d := Except.error.inj (he.symm.trans h)
      have hoff := Match.isOff_of_ofMatch_error htarget
      have hun : s.Unreadable tokens tick e q m :=
        ⟨hacc, hacc.tool.symm.trans htool, hoff, htarget⟩
      rw [hleft, happlied]
      rcases ActiveTools.apply_of_bound hacc.schema hacc.succeeded hoff hb with
        ⟨hstop, hclear⟩ | ⟨hgo, hreg, t, ht, hset⟩ | hquiet
      · have htick : b.active.tick = s.active.tick := by
          rw [hclear]
          rfl
        exact ⟨rfl, rfl, rfl, htick, .inr ⟨q, m, hun, .inl ⟨hstop, hclear⟩⟩⟩
      · have htick : b.active.tick = s.active.tick := by rw [hset]
        exact ⟨rfl, rfl, rfl, htick, .inr ⟨q, m, hun, .inr ⟨hgo, hreg, t, ht, hset⟩⟩⟩
      · have htick : b.active.tick = s.active.tick := by rw [hquiet]
        exact ⟨rfl, rfl, rfl, htick, .inl hquiet⟩
  · have hleft : left = s := hsame
    rw [hleft]
    exact ⟨rfl, rfl, rfl, rfl, .inl rfl⟩

/-- A place of one coordinate is no place, and the check does nothing. -/
theorem unchanged_of_failed_invoke_coordinate :
    let q : Schema :=
      { name := Coordinator.checkTool, fixedOrder := true, hasOff := false,
        registersActiveState := false, arguments := [.leaf (.number "x")],
        expectsArguments := true, priority := 0 }
    let s := Session.start ⟨[q]⟩ {}
    let step := s.invoke [⟨.string, "check", ⟨0, 0, 5⟩⟩, ⟨.number, "1", ⟨0, 6, 7⟩⟩] 5
    step.result = .error (.missingKey "y") ∧ step.session.checks = s.checks ∧
      step.session.runCount = s.runCount ∧ step.session.active = s.active := by
  intro q s step
  have hfail : step.result = .error (.missingKey "y") := rfl
  obtain ⟨-, hchecks, hrun, -, hactive⟩ := unchanged_of_failed_invoke s _ 5 _ hfail
  refine ⟨hfail, hchecks, hrun, ?_⟩
  rcases hactive with hsame | ⟨q', m, hun, hkept⟩
  · exact hsame
  · obtain ⟨first, arguments, htokens, hlookup, -⟩ := hun.accepts.line
    obtain ⟨rfl, -⟩ := List.cons.inj htokens
    obtain rfl : q = q' := Option.some.inj hlookup
    rcases hkept with ⟨hstop, -⟩ | ⟨-, hreg, -⟩
    · exact nomatch hstop
    · exact nomatch hreg

/-- A check of a grammar of its own that keeps running, and that takes a place of one coordinate for
a place. -/
theorem check_runs_after_failure :
    let q : Schema :=
      { name := Coordinator.checkTool, fixedOrder := true, hasOff := false,
        registersActiveState := true, arguments := [.leaf (.number "x")],
        expectsArguments := true, priority := 0 }
    let s := Session.start ⟨[q]⟩ {}
    let step := s.invoke [⟨.string, "check", ⟨0, 0, 5⟩⟩, ⟨.number, "1", ⟨0, 6, 7⟩⟩] 5
    q.Accepted ∧ Registry.ofList [q] = .ok s.registry ∧
      step.result = .error (.missingKey "y") ∧
      s.active.tools = [] ∧
      step.session.active.tools = [("check", ⟨"check", 0, 0, 7, 0, 5, none⟩)] := by
  intro q s step
  have hsorted : Registry.byPriority [q] = [q] := List.mergeSort_singleton q
  have hlist : Registry.ofList [q] = .ok s.registry := by
    unfold Registry.ofList
    rw [hsorted]
    rfl
  exact ⟨by decide, hlist, rfl, rfl, rfl⟩

end Session

end TasScript
