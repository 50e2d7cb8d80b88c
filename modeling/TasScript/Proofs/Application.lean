import TasScript.Session.Call
import TasScript.Proofs.Duration
import TasScript.Proofs.Invoking
import TasScript.Proofs.RunningTools

/-! What one call of a session over the catalogue does to the running tools. An accepted invocation
starts its tool, turns it off or stops all; a tick counts down; the other calls leave them alone. -/

namespace TasScript

/-- The tool that an accepted match runs, `age` ticks after it was started. -/
def Match.toolAt (m : Match) (s : Schema) (tick : Int) (age : Nat) : Tool :=
  let span := m.span.getD ⟨0, 0, 0⟩
  let remaining : Option Nat := m.duration.toOption.join.map fun d : Int => (d - age).toNat
  ⟨s.name, span.line, span.startCol, span.endCol, s.priority, tick, remaining⟩

namespace Registry

theorem mem_of_lookup?_builtIn {name : String} {s : Schema}
    (h : builtIn.lookup? name = some s) : s ∈ catalogue ∧ s.name = name :=
  ⟨List.mem_of_find?_eq_some h, by simpa using List.find?_some h⟩

/-- Only `stop` stops all tools. It cannot be turned off, and neither it nor `check` keeps
running. -/
theorem roles_catalogue : ∀ s ∈ catalogue, (s.stopsAllTools = true ↔ s.name = "stop") ∧
    (s.hasOff = true → s.name ≠ "stop") ∧
    (s.registersActiveState = true → s.name ≠ "stop" ∧ s.name ≠ Coordinator.checkTool) := by
  decide +kernel

end Registry

namespace ActiveTools

variable {a : ActiveTools} {s : Schema} {tokens : List Token} {name : Option Token} {m : Match}
  {tick : Int}

theorem get?_set (a : ActiveTools) (key n : String) (t : Tool) :
    ({ a with tools := a.tools.set key t } : ActiveTools).get? n =
      if key = n then some t else a.get? n := by
  split
  · rename_i h
    subst h
    exact Entries.get?_set_self key t a.tools
  · rename_i h
    exact Entries.get?_set_other t a.tools (Ne.symm h)

theorem get?_turnOff (a : ActiveTools) (s : Schema) (tick : Int) (n : String) :
    (a.turnOff s tick).active.get? n = if s.name = n then none else a.get? n := by
  unfold turnOff
  split
  · split
    · rename_i h
      subst h
      exact Entries.get?_erase_self s.name a.tools
    · rename_i h
      exact Entries.get?_erase_other a.tools (Ne.symm h)
  · rename_i hc
    split
    · rename_i h
      subst h
      simpa [contains] using hc
    · rfl

theorem Sound.turnOff (h : a.Sound) (s : Schema) (tick : Int) :
    (a.turnOff s tick).active.Sound := by
  unfold ActiveTools.turnOff
  split
  · exact h.of_sublist (Entries.erase_sublist _ _)
  · exact h

theorem toolOf_of_catalogue (hs : s ∈ catalogue) :
    toolOf s (s.matchTokens tokens name) tick =
      .ok ((s.matchTokens tokens name).toolAt s tick 0) := by
  obtain ⟨d, hd, hpos⟩ := Schema.duration_of_catalogue hs tokens name
  unfold toolOf Match.toolAt
  rw [hd]
  cases d with
  | none => rfl
  | some n =>
    have hn : ¬ n < 0 := by
      have := hpos n rfl
      omega
    simp [hn, Except.toOption]

/-- What an accepted match leaves of the tool that ran under a name. -/
def effect (s : Schema) (m : Match) (tick : Int) (n : String) (old : Option Tool) : Option Tool :=
  if m.isOff then if s.name = n then none else old
  else if s.stopsAllTools then none
  else if s.registersActiveState ∧ s.name = n then some (m.toolAt s tick 0)
  else old

theorem apply_matched (a : ActiveTools) (tick : Int) (hs : s ∈ catalogue)
    (hok : (s.matchTokens tokens name).succeeded = true) :
    ∃ b, a.apply (s.matchTokens tokens name) tick = .ok b ∧ (a.Sound → b.active.Sound) ∧
      ∀ n, b.active.get? n = effect s (s.matchTokens tokens name) tick n (a.get? n) := by
  unfold effect
  rcases a.apply_cases tick (s.matchTokens_schema tokens name) hok with
    ⟨hoff, happly⟩ | ⟨hoff, hstop, happly⟩ | ⟨hoff, hgo, hreg, happly⟩ | ⟨hoff, hgo, hnot, happly⟩
  · rw [hoff]
    exact ⟨_, happly, fun h => h.turnOff s tick, get?_turnOff a s tick⟩
  · simp only [hoff, hstop, Bool.false_eq_true, if_false, if_true]
    exact ⟨_, happly, fun _ => ⟨.nil, by simp [stopAll, clear]⟩, fun n => rfl⟩
  · rw [toolOf_of_catalogue hs] at happly
    simp only [hoff, hgo, hreg, Bool.false_eq_true, if_false, true_and]
    exact ⟨_, happly, fun h => h.set rfl, fun n => get?_set a s.name n _⟩
  · simp only [hoff, hgo, hnot, Bool.false_eq_true, if_false, false_and]
    exact ⟨_, happly, id, fun n => rfl⟩

theorem effect_eq_some {n : String} {old : Option Tool} {t : Tool}
    (h : effect s m tick n old = some t) :
    old = some t ∨ s.name = n ∧ s.registersActiveState = true := by
  unfold effect at h
  split at h
  · split at h
    · simp at h
    · exact .inl h
  · split at h
    · simp at h
    · split at h
      · rename_i hr
        exact .inr ⟨hr.2, hr.1⟩
      · exact .inl h

end ActiveTools

theorem ActiveTools.effect_registering {r s : Schema} {tokens : List Token} {name : Option Token}
    {tick : Int} {old : Option Tool} (hr : r ∈ catalogue) (hs : s ∈ catalogue)
    (hreg : s.registersActiveState = true) (heq : r.name = s.name → r = s) :
    effect r (r.matchTokens tokens name) tick s.name old =
      if r.name = s.name ∧ (r.matchTokens tokens name).isOff = false then
        some ((r.matchTokens tokens name).toolAt s tick 0)
      else if r.name = s.name ∨ r.name = "stop" then none
      else old := by
  obtain ⟨hstop, hoff, -⟩ := Registry.roles_catalogue r hr
  obtain ⟨-, -, hkeep⟩ := Registry.roles_catalogue s hs
  unfold effect
  by_cases ho : (r.matchTokens tokens name).isOff = true
  · have hne : r.name ≠ "stop" := hoff (Schema.hasOff_of_isOff ho)
    simp [ho, hne]
  · by_cases hn : r.name = s.name
    · obtain rfl := heq hn
      have hns : ¬ r.stopsAllTools = true := fun h => (hkeep hreg).1 (hstop.mp h)
      simp [ho, hns, hreg]
    · by_cases hall : r.stopsAllTools = true
      · have hne : "stop" ≠ s.name := (hkeep hreg).1.symm
        simp [ho, hall, hstop.mp hall, hne]
      · have hne : r.name ≠ "stop" := fun h => hall (hstop.mpr h)
        simp [ho, hn, hall, hne]

namespace Session

variable {s : Session} {tokens : List Token} {tick : Int}

structure Standard (s : Session) : Prop where
  registry : s.registry = .builtIn
  sound : s.active.Sound
  registers : ∀ n t, s.active.get? n = some t →
    ∃ r, Registry.builtIn.lookup? n = some r ∧ r.registersActiveState = true

theorem standard_start (config : Config) : (start .builtIn config).Standard :=
  ⟨rfl, ActiveTools.sound_empty, fun n t h => by simp [start, ActiveTools.get?, Entries.get?] at h⟩

/-- An invocation is accepted by the grammar of its tool, and applied, or nothing happens to the
running tools. Only a check may fail after it was applied. -/
theorem invoke_cases (hr : s.registry = .builtIn) (tokens : List Token) (tick : Int) :
    (∃ first arguments r b, tokens = first :: arguments ∧
        Registry.builtIn.lookup? first.text = some r ∧
        (r.matchTokens arguments (some first)).succeeded = true ∧
        s.active.apply (r.matchTokens arguments (some first)) tick = .ok b ∧
        (s.invoke tokens tick).session.active = b.active ∧
        (s.invoke tokens tick).session.registry = .builtIn ∧
        ((s.invoke tokens tick).result = .ok (r.matchTokens arguments (some first)) ∨
          r.name = Coordinator.checkTool ∧ ∃ d, (s.invoke tokens tick).result = .error d)) ∨
      (s.invoke tokens tick).session = s ∧
        ∀ m, (s.invoke tokens tick).result = .ok m → m.succeeded = false := by
  rcases s.invoke_steps tokens tick with ⟨r, m, hacc, hsession, hresult⟩ | ⟨hsame, hrefused⟩
  · obtain ⟨first, arguments, rfl, hl, rfl⟩ := hacc.line
    rw [hr] at hl
    obtain ⟨hcat, -⟩ := Registry.mem_of_lookup?_builtIn hl
    obtain ⟨b, hb, -⟩ := ActiveTools.apply_matched s.active tick hcat hacc.succeeded
    refine .inl ⟨first, arguments, r, b, rfl, hl, hacc.succeeded, hb, ?_⟩
    rw [hsession, hresult]
    rcases s.apply_cases tick hacc.succeeded with
      ⟨d, hd, -⟩ | ⟨b', hb', -, hs, hok⟩ | ⟨b', t, hb', -, -, hs, hok⟩ |
        ⟨b', d, hb', htool, -, hs, hfail⟩
    · simp [hb] at hd
    · obtain rfl := Except.ok.inj (hb.symm.trans hb')
      rw [hs, hok]
      exact ⟨rfl, hr, .inl rfl⟩
    · obtain rfl := Except.ok.inj (hb.symm.trans hb')
      rw [hs, hok]
      exact ⟨rfl, hr, .inl rfl⟩
    · obtain rfl := Except.ok.inj (hb.symm.trans hb')
      rw [hs, hfail]
      exact ⟨rfl, hr, .inr ⟨hacc.tool.symm.trans htool, d, rfl⟩⟩
  · refine .inr ⟨hsame, fun m h => ?_⟩
    rcases hrefused with ⟨-, hfail⟩ | ⟨m', records, -, hno, hok⟩
    · simp [hfail] at h
    · obtain rfl := Except.ok.inj (hok.symm.trans h)
      exact hno

end Session

end TasScript
