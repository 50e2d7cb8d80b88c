import TasScript.Check.Coordinator
import TasScript.Data.Except

/-! What a target needs in order to be compared with the player, and what the comparison then says.
Coordinates and angles have to be numbers that doubles can stand for, and a tolerance has to be a
number wherever there is an error to hold against it. -/

namespace TasScript

variable {word : Defect} {player : Player}

theorem Value.toReal_eq_ok {v : Value} {x : Float} :
    v.toReal word = .ok x ↔ v.toReal? = some x := by
  cases v with
  | word s => simp [toReal, toReal?]
  | amount q =>
    cases hq : q.toReal? <;> simp [toReal, toReal?, hq]

theorem Position.mapM_toReal_eq_ok {p : Position Value} {q : Position Float} :
    p.mapM (Value.toReal word) = .ok q ↔ p.mapM Value.toReal? = some q := by
  simp only [mapM, Except.bind_eq_ok, Value.toReal_eq_ok, Except.pure_eq_ok, Option.bind_eq_bind,
    Option.bind_eq_some_iff, Option.pure_def, Option.some.injEq]

theorem Angles.mapM_toReal_eq_ok {a : Angles Value} {b : Angles Float} :
    a.mapM (Value.toReal word) = .ok b ↔ a.mapM Value.toReal? = some b := by
  simp only [mapM, Except.bind_eq_ok, Value.toReal_eq_ok, Except.pure_eq_ok, Option.bind_eq_bind,
    Option.bind_eq_some_iff, Option.pure_def, Option.some.injEq]

namespace CheckTarget

variable {t : CheckTarget} {k : Comparison}

/-- The position is there in doubles, and the player is within its tolerance. -/
def PositionClose (t : CheckTarget) (player : Player) : Prop :=
  ∀ p, t.position = some p → ∃ q e, p.mapM Value.toReal? = some q ∧ t.posEpsilon = .amount e ∧
    e.bounds (player.position.distance q) = true

/-- The larger of the two differences is within the tolerance. -/
def AnglesClose (t : CheckTarget) (player : Player) : Prop :=
  ∀ a, t.angles = some a → ∃ b e, a.mapM Value.toReal? = some b ∧ t.angEpsilon = .amount e ∧
    e.bounds (player.angles.difference b) = true

/-- Every value that a comparison with the player looks at is a number, and every coordinate and
angle one that a double can stand for. -/
structure Comparable (t : CheckTarget) (player : Player) : Prop where
  position : ∀ p, t.position = some p → (∃ q, p.mapM Value.toReal? = some q) ∧
    ∃ e, t.posEpsilon = .amount e
  angles : ∀ a, t.angles = some a → (∃ b, a.mapM Value.toReal? = some b) ∧
    (t.PositionClose player → ∃ e, t.angEpsilon = .amount e)

section

variable {α β : Type} {part : Option α} {read : α → Except Defect β} {read? : α → Option β}
  {error : β → Float} {epsilon : Value} {near : Bool}

/-- A part of a target is measured where it is not there, or can be read. -/
theorem mapM_eq_ok_iff (hread : ∀ {a b}, read a = .ok b ↔ read? a = some b) :
    (∃ e, part.mapM (fun a => (read a).map error) = .ok e) ↔
      ∀ a, part = some a → ∃ b, read? a = some b := by
  cases part with
  | none => simp [Except.pure_eq_ok]
  | some a =>
    cases hb : read a with
    | error d =>
      have hnone : ∀ b, read? a ≠ some b := fun b h => by simp [hread.mpr h] at hb
      simp [hb, Functor.map, Except.map, hnone]
    | ok b => simp [hb, hread.mp hb, Functor.map, Except.map]

/-- What a part of a target comes to that is measured and held against its tolerance. -/
theorem mapM_within_iff (hread : ∀ {a b}, read a = .ok b ↔ read? a = some b) :
    (∃ e, part.mapM (fun a => (read a).map error) = .ok e ∧ within e epsilon = .ok near) ↔
      (∀ a, part = some a → (∃ b, read? a = some b) ∧ ∃ e, epsilon = .amount e) ∧
        (near = true ↔ ∀ a, part = some a →
          ∃ b e, read? a = some b ∧ epsilon = .amount e ∧ e.bounds (error b) = true) := by
  cases part with
  | none => simp [Except.pure_eq_ok, within]
  | some a =>
    cases hb : read a with
    | error d =>
      have hnone : ∀ b, read? a ≠ some b := fun b h => by simp [hread.mpr h] at hb
      simp [hb, Functor.map, Except.map, hnone]
    | ok b =>
      have hsome := hread.mp hb
      cases epsilon with
      | word s => simp [hb, Functor.map, Except.map, within]
      | amount q => cases near <;> simp [hb, hsome, Functor.map, Except.map, within]

end

theorem position_within_iff {near : Bool} :
    (∃ e, t.positionError? player = .ok e ∧ within e t.posEpsilon = .ok near) ↔
      (∀ p, t.position = some p → (∃ q, p.mapM Value.toReal? = some q) ∧
        ∃ e, t.posEpsilon = .amount e) ∧ (near = true ↔ t.PositionClose player) :=
  mapM_within_iff Position.mapM_toReal_eq_ok

theorem angles_within_iff {near : Bool} :
    (∃ e, t.angleError? player = .ok e ∧ within e t.angEpsilon = .ok near) ↔
      (∀ a, t.angles = some a → (∃ b, a.mapM Value.toReal? = some b) ∧
        ∃ e, t.angEpsilon = .amount e) ∧ (near = true ↔ t.AnglesClose player) :=
  mapM_within_iff Angles.mapM_toReal_eq_ok

theorem exists_angleError?_iff : (∃ e, t.angleError? player = .ok e) ↔
    ∀ a, t.angles = some a → ∃ b, a.mapM Value.toReal? = some b :=
  mapM_eq_ok_iff Angles.mapM_toReal_eq_ok

theorem compareWith_eq_ok : t.compareWith player = .ok k ↔
    t.positionError? player = .ok k.positionError ∧ t.angleError? player = .ok k.angleError ∧
      ∃ near, within k.positionError t.posEpsilon = .ok near ∧
        (if near then within k.angleError t.angEpsilon else .ok false) = .ok k.isMet := by
  unfold compareWith areWithin
  simp only [Except.bind_eq_ok, Except.ok.injEq]
  constructor
  · rintro ⟨e, he, d, hd, met, ⟨near, hnear, hmet⟩, rfl⟩
    exact ⟨he, hd, near, hnear, hmet⟩
  · rintro ⟨he, hd, near, hnear, hmet⟩
    exact ⟨_, he, _, hd, _, ⟨near, hnear, hmet⟩, rfl⟩

/-- A comparison is made where it finds the numbers it needs, and it says whether both parts of the
target are close. -/
theorem exists_compareWith_iff {met : Bool} :
    (∃ k, t.compareWith player = .ok k ∧ k.isMet = met) ↔
      t.Comparable player ∧ (met = true ↔ t.PositionClose player ∧ t.AnglesClose player) := by
  constructor
  · rintro ⟨k, hk, rfl⟩
    obtain ⟨he, hd, near, hnear, hmet⟩ := compareWith_eq_ok.mp hk
    obtain ⟨hposition, hclose⟩ := position_within_iff.mp ⟨_, he, hnear⟩
    -- the tolerance of the angles is looked at only where the position is close
    cases near with
    | true =>
      obtain ⟨hangles, hturned⟩ := angles_within_iff.mp ⟨_, hd, hmet⟩
      refine ⟨⟨hposition, fun a ha => ⟨(hangles a ha).1, fun _ => (hangles a ha).2⟩⟩, ?_⟩
      exact hturned.trans (and_iff_right (hclose.mp rfl)).symm
    | false =>
      have hfar : ¬ t.PositionClose player := fun h => Bool.false_ne_true (hclose.mpr h)
      refine ⟨⟨hposition, fun a ha => ⟨exists_angleError?_iff.mp ⟨_, hd⟩ a ha, ?_⟩⟩, ?_⟩
      · exact fun h => absurd h hfar
      · exact iff_of_false (by simp [← Except.ok.inj hmet]) fun h => hfar h.1
  · rintro ⟨h, hmet⟩
    by_cases hclose : t.PositionClose player
    · obtain ⟨e, he, hnear⟩ := position_within_iff.mpr ⟨h.position, iff_of_true rfl hclose⟩
      have hturned : met = true ↔ t.AnglesClose player := hmet.trans (and_iff_right hclose)
      obtain ⟨d, hd, hmet⟩ := angles_within_iff.mpr
        ⟨fun a ha => ⟨(h.angles a ha).1, (h.angles a ha).2 hclose⟩, hturned⟩
      exact ⟨⟨e, d, met⟩, compareWith_eq_ok.mpr ⟨he, hd, true, hnear, hmet⟩, rfl⟩
    · obtain ⟨e, he, hnear⟩ :=
        position_within_iff.mpr ⟨h.position, iff_of_false Bool.false_ne_true hclose⟩
      obtain ⟨d, hd⟩ := exists_angleError?_iff.mpr fun a ha => (h.angles a ha).1
      have hmet : met = false := Bool.eq_false_iff.mpr fun h => hclose (hmet.mp h).1
      exact ⟨⟨e, d, met⟩, compareWith_eq_ok.mpr ⟨he, hd, false, hnear, by rw [hmet]; rfl⟩, rfl⟩

theorem comparable_iff : t.Comparable player ↔ ∃ k, t.compareWith player = .ok k := by
  constructor
  · intro h
    by_cases hmet : t.PositionClose player ∧ t.AnglesClose player
    · obtain ⟨k, hk, -⟩ := exists_compareWith_iff.mpr ⟨h, iff_of_true (rfl : true = true) hmet⟩
      exact ⟨k, hk⟩
    · obtain ⟨k, hk, -⟩ := exists_compareWith_iff.mpr ⟨h, iff_of_false Bool.false_ne_true hmet⟩
      exact ⟨k, hk⟩
  · rintro ⟨k, hk⟩
    exact (exists_compareWith_iff.mp ⟨k, hk, rfl⟩).1

theorem isMet_iff (hk : t.compareWith player = .ok k) :
    k.isMet = true ↔ t.PositionClose player ∧ t.AnglesClose player :=
  (exists_compareWith_iff.mp ⟨k, hk, rfl⟩).2

end CheckTarget

end TasScript
