import TasScript.Proofs.CheckLine
import TasScript.Proofs.Invoking
import TasScript.Proofs.NumeralValue

/-! From the line of a check to its target. A session over the catalogue accepts exactly the lines
that are checks, and the target that then waits for the tick is the one the line asks for. -/

namespace TasScript

namespace Checked

variable {α β : Type}

theorem seq_eq_ok {f : Checked (α → β)} {x : Checked α} {b : β} (h : f <*> x = .ok b) :
    ∃ g a, f = .ok g ∧ x = .ok a ∧ b = g a := by
  change both f x = .ok b at h
  cases f with
  | error fs => cases x <;> simp [both] at h
  | ok g =>
    cases x with
    | error gs => simp [both] at h
    | ok a => exact ⟨g, a, rfl, rfl, (Except.ok.inj h).symm⟩

theorem optional_eq_ok {fields : List (String × Datum)} {name : String} {absent a : α}
    {read : Datum → Except Cause α} (h : Datum.optional fields name absent read = .ok a) :
    a = absent ∨ ∃ d, read d = .ok a := by
  unfold Datum.optional at h
  split at h
  · rename_i d _
    unfold atPath at h
    split at h
    · rename_i b hb
      obtain rfl := Except.ok.inj h
      exact .inr ⟨d, hb⟩
    · simp at h
  · exact .inl (Except.ok.inj h).symm

end Checked

theorem Datum.nonneg_of_toNonnegative {d : Datum} {x : Float} (h : d.toNonnegative = .ok x) :
    0 ≤ x := by
  unfold toNonnegative at h
  split at h
  · split at h
    · rename_i hx
      obtain rfl := Except.ok.inj h
      exact hx
    · simp at h
  · simp at h

namespace Config

/-- Settings that can be read. -/
def Accepted (c : Config) : Prop := ∃ fields, read fields = .ok c

theorem Accepted.tolerances {c : Config} (h : c.Accepted) :
    0 ≤ c.posEpsilon ∧ 0 ≤ c.angEpsilon := by
  obtain ⟨fields, h⟩ := h
  obtain ⟨f, ang, hf, hang, rfl⟩ := Checked.seq_eq_ok h
  obtain ⟨g, pos, hg, hpos, rfl⟩ := Checked.seq_eq_ok hf
  obtain ⟨_, replays, hmk, -, rfl⟩ := Checked.seq_eq_ok hg
  obtain rfl := Except.ok.inj hmk
  have hnonneg : ∀ {x absent : Float} {name : String}, 0 ≤ absent →
      Datum.optional fields name absent Datum.toNonnegative = .ok x → 0 ≤ x := by
    intro x absent name habsent hx
    rcases Checked.optional_eq_ok hx with rfl | ⟨d, hd⟩
    · exact habsent
    · exact Datum.nonneg_of_toNonnegative hd
  exact ⟨hnonneg (by decide +kernel) hpos, hnonneg (by decide +kernel) hang⟩

end Config

theorem Pending.at?_put (t : CheckTarget) (p : Pending) : at? t.tick (put t p) = some t := by
  induction p with
  | nil => simp [put, at?]
  | cons u us ih =>
    unfold put
    split
    · simp [at?]
    · split
      · simp [at?]
      · rename_i hne
        have hother : (u.tick == t.tick) = false := by simpa using Ne.symm hne
        have hskip : at? t.tick (u :: put t us) = at? t.tick (put t us) := by
          simp [at?, hother]
        rw [hskip, ih]

namespace CheckLine

variable {k : CheckLine} {arguments : List Token} {name : Option Token}

theorem Written.matchTokens (hk : k.Written arguments) (name : Option Token) :
    Catalogue.check.matchTokens arguments name =
      ⟨Coordinator.checkTool, .bound k.cells [],
        (Catalogue.check.line arguments name).fullSpan?, some Catalogue.check⟩ :=
  Schema.matchTokens_of_judge (judge_iff.mpr ⟨k, hk, rfl⟩)

theorem succeeded_iff : (Catalogue.check.matchTokens arguments name).succeeded = true ↔
    ∃ k : CheckLine, k.Written arguments := by
  constructor
  · intro h
    obtain ⟨v, hv, -⟩ := Schema.matchTokens_of_succeeded h
    obtain ⟨k, hk, -⟩ := judge_iff.mp hv
    exact ⟨k, hk⟩
  · rintro ⟨k, hk⟩
    rw [hk.matchTokens]
    rfl

theorem number_of_clause {keyword : String} {e : Option Float} {ts : List Token} {x : Float}
    (hc : Clause keyword (e.map fun x => [x]) ts) (he : e = some x) : x.isNaN = false := by
  subst he
  obtain ⟨t, us, -, -, hus⟩ := hc
  obtain ⟨u, _, hu, -, -⟩ := List.forall₂_cons_right_iff.mp hus
  exact isNaN_of_splitNumber? hu.2

/-- Tolerances that are written are numbers, and those of the settings are not below zero. -/
theorem tolerance_nonneg {keyword : String} {e : Option Float} {ts : List Token} {absent : Float}
    (hc : Clause keyword (e.map fun x => [x]) ts) (he : ∀ x, e = some x → ¬ x < 0)
    (habsent : 0 ≤ absent) : 0 ≤ e.getD absent := by
  cases e with
  | none => exact habsent
  | some x => exact Double.le_of_not_lt (number_of_clause hc rfl) (by decide +kernel) (he x rfl)

end CheckLine

namespace Session

variable {s : Session} {first : Token} {arguments : List Token} {tick : Int}

theorem apply_check (s : Session) (k : CheckLine) (span : Option Span) (tick : Int) :
    let m : Match :=
      ⟨Coordinator.checkTool, .bound k.cells [], span, some Catalogue.check⟩
    (s.apply m tick).result = .ok m ∧
      (s.apply m tick).session.checks.pending =
        Pending.put (k.target tick s.config span) s.checks.pending := by
  intro m
  have hactive : s.active.apply m tick = .ok { active := s.active } := rfl
  have hscheduled : s.checks.schedule m tick =
      .ok ({ s.checks with
          pending := Pending.put (k.target tick s.config span) s.checks.pending },
        k.target tick s.config span,
        [Coordinator.scheduledRecord (k.target tick s.config span)]) := by
    rw [s.checks.schedule_check tick rfl rfl, CheckLine.ofMatch_cells]
    rfl
  unfold apply
  rw [hactive]
  dsimp only
  rw [if_pos rfl, hscheduled]
  exact ⟨rfl, rfl⟩

theorem invoke_check (hr : s.registry = .builtIn) (hfirst : first.text = Coordinator.checkTool) :
    let m := Catalogue.check.matchTokens arguments (some first)
    (m.succeeded = false → (s.invoke (first :: arguments) tick).result = .ok m) ∧
      ∀ k : CheckLine, k.Written arguments →
        (s.invoke (first :: arguments) tick).result = .ok m ∧
          (s.invoke (first :: arguments) tick).session.checks.pending =
            Pending.put (k.target tick s.config m.span) s.checks.pending := by
  intro m
  have hlookup : s.registry.lookup? first.text = some Catalogue.check := by
    rw [hr, hfirst]
    rfl
  have hvalid : s.validate (first :: arguments) = .ok (m, m.records) := by
    simp [validate, hlookup, m]
  unfold invoke
  rw [hvalid]
  dsimp only
  constructor
  · intro hm
    rw [if_neg (by simp [hm])]
  · intro k hk
    have hm := hk.matchTokens (some first)
    have hok : m.succeeded = true := CheckLine.succeeded_iff.mpr ⟨k, hk⟩
    rw [if_pos hok]
    dsimp only
    rw [show m = _ from hm]
    exact apply_check s k _ tick

/-- From the line of a check to its target: which lines are accepted, and what then waits for the
tick. -/
theorem target_of_check (s : Session) (first : Token) (arguments : List Token) (tick : Int)
    (hr : s.registry = .builtIn) (hfirst : first.text = Coordinator.checkTool) :
    let step := s.invoke (first :: arguments) tick
    ((∃ m, step.result = .ok m ∧ m.succeeded = true) ↔
        ∃ k : CheckLine, k.Written arguments) ∧
      ∀ k : CheckLine, k.Written arguments →
        ∃ t, Pending.at? tick step.session.checks.pending = some t ∧
          t.position = k.position.map (fun p => p.map .ofReal) ∧
          t.angles = k.angles.map (fun a => a.map .ofReal) ∧
          t.posEpsilon = .ofReal (k.posEpsilon.getD s.config.posEpsilon) ∧
          t.angEpsilon = .ofReal (k.angEpsilon.getD s.config.angEpsilon) ∧
          (s.config.Accepted → ∀ e, t.posEpsilon = .ofReal e ∨ t.angEpsilon = .ofReal e →
            0 ≤ e ∧ e.isNaN = false) := by
  intro step
  obtain ⟨hrefused, hwritten⟩ := @invoke_check s first arguments tick hr hfirst
  constructor
  · constructor
    · rintro ⟨m, hm, hok⟩
      have haccepted : (Catalogue.check.matchTokens arguments (some first)).succeeded = true := by
        by_contra hnot
        have hfail := hrefused (by simpa using hnot)
        obtain rfl := Except.ok.inj (hm.symm.trans hfail)
        exact hnot hok
      exact CheckLine.succeeded_iff.mp haccepted
    · rintro ⟨k, hk⟩
      exact ⟨_, (hwritten k hk).1, CheckLine.succeeded_iff.mpr ⟨k, hk⟩⟩
  · intro k hk
    let t := k.target tick s.config (Catalogue.check.matchTokens arguments (some first)).span
    have hpending : step.session.checks.pending = Pending.put t s.checks.pending :=
      (hwritten k hk).2
    have hat : Pending.at? tick step.session.checks.pending = some t := by
      rw [hpending]
      exact Pending.at?_put t s.checks.pending
    refine ⟨t, hat, rfl, rfl, rfl, rfl, ?_⟩
    intro hconfig
    obtain ⟨hpos, hang⟩ := hconfig.tolerances
    obtain ⟨_, _, _, _, -, -, -, hposClause, hangClause, hposLeast, hangLeast⟩ := hk
    have hp := CheckLine.tolerance_nonneg hposClause hposLeast hpos
    have ha := CheckLine.tolerance_nonneg hangClause hangLeast hang
    rintro e (he | he)
    · obtain rfl := Value.ofReal_inj.mp he
      exact ⟨hp, (Double.isNaN_of_le hp).2⟩
    · obtain rfl := Value.ofReal_inj.mp he
      exact ⟨ha, (Double.isNaN_of_le ha).2⟩

/-- A tolerance of zero is not taken for one that is left out. -/
theorem target_of_check_zero :
    let arguments : List Token := [⟨.string, "POS", ⟨1, 6, 9⟩⟩, ⟨.number, "1", ⟨1, 10, 11⟩⟩,
      ⟨.number, "-2.", ⟨1, 12, 15⟩⟩, ⟨.number, ".5", ⟨1, 16, 18⟩⟩,
      ⟨.string, "angepsilon", ⟨1, 19, 29⟩⟩, ⟨.number, "0", ⟨1, 30, 31⟩⟩]
    let s := Session.start .builtIn {}
    let step := s.invoke (⟨.string, "check", ⟨1, 0, 5⟩⟩ :: arguments) 40
    s.config.Accepted ∧ (∃ m, step.result = .ok m ∧ m.succeeded = true) ∧
      ∃ t, Pending.at? 40 step.session.checks.pending = some t ∧
        t.position = some ⟨.ofReal 1, .ofReal (-2), .ofReal 0.5⟩ ∧ t.angles = none ∧
        t.posEpsilon = .ofReal 0.5 ∧ t.angEpsilon = .ofReal 0 ∧
        ∀ e, t.posEpsilon = .ofReal e ∨ t.angEpsilon = .ofReal e → 0 ≤ e ∧ e.isNaN = false := by
  intro arguments s step
  have hconfig : s.config.Accepted := ⟨[], rfl⟩
  let k : CheckLine := ⟨some ⟨1, -2, 0.5⟩, none, none, some 0⟩
  have hk : k.Written arguments := by
    refine ⟨arguments.take 4, [], [], arguments.drop 4, rfl,
      ⟨_, _, rfl, by decide +kernel, .cons ?_ (.cons ?_ (.cons ?_ .nil))⟩, rfl, rfl,
      ⟨_, _, rfl, by decide +kernel, .cons ?_ .nil⟩, by simp [k], ?_⟩
    · exact ⟨rfl, by decide +kernel⟩
    · exact ⟨rfl, by decide +kernel⟩
    · exact ⟨rfl, by decide +kernel⟩
    · exact ⟨rfl, by decide +kernel⟩
    · rintro e he
      obtain rfl := Option.some.inj he
      decide +kernel
  obtain ⟨haccepted, htarget⟩ :=
    target_of_check s ⟨.string, "check", ⟨1, 0, 5⟩⟩ arguments 40 rfl rfl
  obtain ⟨t, hat, hposition, hangles, hposEpsilon, hangEpsilon, hnonneg⟩ := htarget k hk
  dsimp only [step]
  exact ⟨hconfig, haccepted.mpr ⟨k, hk⟩, t, hat, hposition, hangles, hposEpsilon, hangEpsilon,
    hnonneg hconfig⟩

end Session

end TasScript
