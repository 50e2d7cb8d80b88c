import TasScript.Proofs.Comparing
import TasScript.Proofs.FloatOrder
import TasScript.Session.Call

/-! What it takes to pass a check. Position, pitch and yaw each have to be within their tolerance,
with one exception: a way to the yaw that is not a number is never the larger of the two, so the
pitch alone decides. -/

namespace TasScript

/-- What holds of the greater of two numbers holds of both, but for a second that is not a
number. -/
theorem of_greater_iff {p : Float → Prop} (hdown : ∀ {x y}, x ≤ y → p y → p x)
    (hnumber : ∀ {x}, p x → x.isNaN = false) {x y : Float} :
    p (greater x y) ↔ p x ∧ (p y ∨ y.isNaN = true) := by
  unfold greater
  by_cases hlt : x < y
  · have hless : Arc.less x y = true := decide_eq_true hlt
    rw [if_pos hless]
    constructor
    · exact fun hy => ⟨hdown (Double.le_of_lt hlt) hy, .inl hy⟩
    · rintro ⟨-, hy | hy⟩
      · exact hy
      · exact absurd hlt (Double.not_lt_of_isNaN hy)
  · have hless : ¬ Arc.less x y = true := fun h => hlt (of_decide_eq_true h)
    rw [if_neg hless]
    constructor
    · intro hx
      refine ⟨hx, ?_⟩
      by_cases hy : y.isNaN = true
      · exact .inr hy
      · exact .inl (hdown (Double.le_of_not_lt (hnumber hx) (by simpa using hy) hlt) hx)
    · exact fun h => h.1

namespace Quantity

variable {q : Quantity} {x y : Float}

theorem bounds_of_le (hxy : x ≤ y) (hy : q.bounds y = true) : q.bounds x = true := by
  cases q with
  | real z =>
    simp only [bounds, decide_eq_true_eq] at hy ⊢
    exact Double.le_trans hxy hy
  | whole n =>
    by_cases hdown : roundsDown n = true
    · simp only [bounds, if_pos hdown, decide_eq_true_eq] at hy ⊢
      exact Double.le_trans hxy hy
    · simp only [bounds, if_neg hdown, decide_eq_true_eq] at hy ⊢
      exact Double.lt_of_le_of_lt hxy hy

theorem isNaN_of_bounds (h : q.bounds x = true) : x.isNaN = false := by
  cases q with
  | real z =>
    simp only [bounds, decide_eq_true_eq] at h
    exact (Double.isNaN_of_le h).1
  | whole n =>
    by_cases hdown : roundsDown n = true
    · simp only [bounds, if_pos hdown, decide_eq_true_eq] at h
      exact (Double.isNaN_of_le h).1
    · simp only [bounds, if_neg hdown, decide_eq_true_eq] at h
      exact (Double.isNaN_of_le (Double.le_of_lt h)).1

theorem bounds_greater_iff :
    q.bounds (greater x y) = true ↔ q.bounds x = true ∧ (q.bounds y = true ∨ y.isNaN = true) :=
  of_greater_iff (p := fun x => q.bounds x = true) bounds_of_le isNaN_of_bounds

end Quantity

namespace CheckTarget

variable {t : CheckTarget} {player : Player}

def PitchClose (t : CheckTarget) (player : Player) : Prop :=
  ∀ a, t.angles = some a → ∃ x e, a.pitch.toReal? = some x ∧ t.angEpsilon = .amount e ∧
    e.bounds (angleDifference player.angles.pitch x) = true

def YawClose (t : CheckTarget) (player : Player) : Prop :=
  ∀ a, t.angles = some a → ∃ x e, a.yaw.toReal? = some x ∧ t.angEpsilon = .amount e ∧
    e.bounds (angleDifference player.angles.yaw x) = true

/-- Axis by axis, as a check is meant. -/
def Close (t : CheckTarget) (player : Player) : Prop :=
  t.PositionClose player ∧ t.PitchClose player ∧ t.YawClose player

def YawUndefined (t : CheckTarget) (player : Player) : Prop :=
  ∃ a x, t.angles = some a ∧ a.yaw.toReal? = some x ∧
    (angleDifference player.angles.yaw x).isNaN = true

theorem mapM_angles_eq_some {a : Angles Value} {b : Angles Float} :
    a.mapM Value.toReal? = some b ↔
      a.pitch.toReal? = some b.pitch ∧ a.yaw.toReal? = some b.yaw := by
  simp only [Angles.mapM, Option.bind_eq_bind, Option.bind_eq_some_iff, Option.pure_def,
    Option.some.injEq]
  constructor
  · rintro ⟨pitch, hpitch, yaw, hyaw, rfl⟩
    exact ⟨hpitch, hyaw⟩
  · rintro ⟨hpitch, hyaw⟩
    exact ⟨_, hpitch, _, hyaw, rfl⟩

theorem anglesClose_iff :
    t.AnglesClose player ↔ t.PitchClose player ∧ (t.YawClose player ∨ t.YawUndefined player) := by
  unfold AnglesClose PitchClose YawClose YawUndefined
  cases ha : t.angles with
  | none => simp
  | some a =>
    simp only [Option.some.injEq, forall_eq', mapM_angles_eq_some, Angles.difference,
      Quantity.bounds_greater_iff]
    constructor
    · rintro ⟨b, e, ⟨hpitch, hyaw⟩, he, hfirst, hsecond⟩
      refine ⟨⟨_, e, hpitch, he, hfirst⟩, hsecond.imp ?_ ?_⟩
      · exact fun hclose => ⟨_, e, hyaw, he, hclose⟩
      · exact fun hnan => ⟨a, _, rfl, hyaw, hnan⟩
    · rintro ⟨⟨x, e, hpitch, he, hfirst⟩, ⟨y, e', hyaw, he', hclose⟩ | ⟨a', y, rfl, hyaw, hnan⟩⟩
      · obtain rfl := Value.amount.inj (he.symm.trans he')
        exact ⟨⟨x, y⟩, e, ⟨hpitch, hyaw⟩, he, hfirst, .inl hclose⟩
      · exact ⟨⟨x, y⟩, e, ⟨hpitch, hyaw⟩, he, hfirst, .inr hnan⟩

theorem YawUndefined.not_yawClose (h : t.YawUndefined player) : ¬ t.YawClose player := by
  obtain ⟨a, x, ha, hx, hnan⟩ := h
  intro hclose
  obtain ⟨y, e, hy, -, hbound⟩ := hclose a ha
  obtain rfl : x = y := Option.some.inj (hx.symm.trans hy)
  have hnumber := Quantity.isNaN_of_bounds hbound
  rw [hnan] at hnumber
  exact absurd hnumber.symm Bool.false_ne_true

theorem isMet_iff_axes {k : Comparison} (hk : t.compareWith player = .ok k) :
    k.isMet = true ↔ t.PositionClose player ∧ t.PitchClose player ∧
      (t.YawClose player ∨ t.YawUndefined player) := by
  rw [isMet_iff hk, anglesClose_iff]

/-- The rule on each axis is missed only where the yaw has no difference and all else is close. -/
theorem isMet_iff_close {k : Comparison} (hk : t.compareWith player = .ok k) :
    (k.isMet = true ↔ t.Close player) ↔
      ¬ (t.PositionClose player ∧ t.PitchClose player ∧ t.YawUndefined player) := by
  rw [isMet_iff_axes hk, Close]
  constructor
  · rintro h ⟨hpos, hpitch, hyaw⟩
    exact hyaw.not_yawClose (h.mp ⟨hpos, hpitch, .inr hyaw⟩).2.2
  · intro h
    constructor
    · rintro ⟨hpos, hpitch, hyaw | hyaw⟩
      · exact ⟨hpos, hpitch, hyaw⟩
      · exact absurd ⟨hpos, hpitch, hyaw⟩ h
    · exact fun ⟨hpos, hpitch, hyaw⟩ => ⟨hpos, hpitch, .inl hyaw⟩

end CheckTarget

namespace Coordinator

theorem settle_pass {b : ReplayBudget} {met : Bool} :
    (settle b met).2 = .pass ↔ met = true := by
  unfold settle
  cases met with
  | true => simp
  | false =>
    cases hb : b.consume with
    | mk spent left => cases left <;> simp

/-- When a due check passes, and when that is what the rule on each axis says. A target that cannot
be compared with the player does not come to that. -/
theorem pass_iff (c : Coordinator) (tick : Int) (player : Player) (t : CheckTarget)
    (h : Pending.at? (tick + 1) c.pending = some t) :
    (t.Comparable player → ∃ r, (c.evaluate tick player).2.1 = .ok (some r) ∧ r.target = t ∧
      (r.outcome = .pass ↔ t.PositionClose player ∧ t.PitchClose player ∧
        (t.YawClose player ∨ t.YawUndefined player)) ∧
      ((r.outcome = .pass ↔ t.Close player) ↔
        ¬ (t.PositionClose player ∧ t.PitchClose player ∧ t.YawUndefined player))) ∧
      (¬ t.Comparable player → ∃ d, (c.evaluate tick player).2.1 = .error d) := by
  constructor
  · intro hcomparable
    obtain ⟨k, hk⟩ := CheckTarget.comparable_iff.mp hcomparable
    have hpass : (judge c.budget t k).2.outcome = .pass ↔ k.isMet = true := settle_pass
    refine ⟨(judge c.budget t k).2, by rw [evaluate_of_ok h hk], rfl, ?_, ?_⟩
    · rw [hpass, CheckTarget.isMet_iff_axes hk]
    · rw [hpass, CheckTarget.isMet_iff_close hk]
  · intro hnot
    rw [CheckTarget.comparable_iff, ← Except.exists_eq_error_iff] at hnot
    obtain ⟨d, hd⟩ := hnot
    exact ⟨d, by rw [evaluate_of_error h hd]⟩

/-- Infinitely far is still within an infinite tolerance. -/
theorem pass_iff_infinite :
    let t : CheckTarget := ⟨1, some ⟨.ofReal 0, .ofReal 64, .amount (.whole (-7))⟩,
      some ⟨.ofReal 10, .ofReal (-350)⟩, .ofReal (1 / 0), .amount (.whole 0), none⟩
    let c : Coordinator := ⟨{}, ⟨15, 0⟩, [t]⟩
    let player : Player := ⟨⟨-1 / 0, 0, 0⟩, ⟨370, 10⟩⟩
    Pending.at? (0 + 1) c.pending = some t ∧ t.Comparable player ∧ t.Close player ∧
      ∃ r, (c.evaluate 0 player).2.1 = .ok (some r) ∧ r.outcome = .pass := by
  intro t c player
  have hdue : Pending.at? (0 + 1) c.pending = some t := by decide +kernel
  have hclose : t.Close player := by
    refine ⟨fun p hp => ?_, fun a ha => ?_, fun a ha => ?_⟩
    · obtain rfl := Option.some.inj hp
      exact ⟨⟨0, 64, -7⟩, _, by decide +kernel, rfl, by decide +kernel⟩
    · obtain rfl := Option.some.inj ha
      exact ⟨10, _, rfl, rfl, by decide +kernel⟩
    · obtain rfl := Option.some.inj ha
      exact ⟨-350, _, rfl, rfl, by decide +kernel⟩
  have hcomparable : t.Comparable player := by
    refine ⟨fun p hp => ?_, fun a ha => ?_⟩
    · obtain ⟨q, e, hq, he, -⟩ := hclose.1 p hp
      exact ⟨⟨q, hq⟩, e, he⟩
    · obtain rfl := Option.some.inj ha
      exact ⟨⟨⟨10, -350⟩, rfl⟩, fun _ => ⟨_, rfl⟩⟩
  obtain ⟨r, hr, -, hpass, -⟩ := (pass_iff c 0 player t hdue).1 hcomparable
  exact ⟨hdue, hcomparable, hclose, r, hr, hpass.mpr ⟨hclose.1, hclose.2.1, .inl hclose.2.2⟩⟩

/-- A player whose yaw is not a number passes a check of it. -/
theorem pass_without_yaw :
    let line : List Token := [⟨.string, "check", ⟨0, 0, 5⟩⟩, ⟨.string, "ang", ⟨0, 6, 9⟩⟩,
      ⟨.number, "0", ⟨0, 10, 11⟩⟩, ⟨.number, "90", ⟨0, 12, 14⟩⟩]
    let c := ((Session.start .builtIn {}).invoke line 1).session.checks
    let player : Player := ⟨⟨0, 0, 0⟩, ⟨0, 0 / 0⟩⟩
    ∃ t r, Pending.at? (0 + 1) c.pending = some t ∧ (c.evaluate 0 player).2.1 = .ok (some r) ∧
      ¬ (r.outcome = .pass ↔ t.Close player) := by
  intro line c player
  let t : CheckTarget :=
    ⟨1, none, some ⟨.ofReal 0, .ofReal 90⟩, .ofReal 0.5, .ofReal 0.2, some ⟨0, 0, 14⟩⟩
  have hdue : Pending.at? (0 + 1) c.pending = some t := by decide +kernel
  have hpass : (c.evaluate 0 player).2.1 = .ok (some ⟨.pass, t, 0, none, some 0⟩) :=
    Except.toOption_eq_some.mp (by decide +kernel)
  refine ⟨t, _, hdue, hpass, fun h => ?_⟩
  obtain ⟨x, e, hx, he, hyaw⟩ := (h.mp rfl).2.2 _ rfl
  obtain rfl := Option.some.inj hx
  obtain rfl := Value.amount.inj he
  exact absurd hyaw (by decide +kernel)

end Coordinator

end TasScript
