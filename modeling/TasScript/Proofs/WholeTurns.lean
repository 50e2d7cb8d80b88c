import Mathlib.Algebra.Order.Round
import Mathlib.Data.Rat.Floor
import TasScript.Pose

/-! The difference of two angles in exact arithmetic. It is the distance of one angle less the other
to the nearest number of whole turns, and everything else about it follows from that: no number of
turns is nearer than the difference tells, and one is just as near. -/

namespace TasScript

theorem lesser_eq_min (x y : Rat) : lesser x y = min x y := by
  unfold lesser
  by_cases h : y < x
  · have hless : Arc.less y x = true := decide_eq_true h
    rw [if_pos hless, min_eq_right h.le]
  · have hless : ¬ Arc.less y x = true := fun hl => h (of_decide_eq_true hl)
    rw [if_neg hless, min_eq_left (not_lt.mp h)]

theorem greater_eq_max (x y : Rat) : greater x y = max x y := by
  unfold greater
  by_cases h : x < y
  · have hless : Arc.less x y = true := decide_eq_true h
    rw [if_pos hless, max_eq_right h.le]
  · have hless : ¬ Arc.less x y = true := fun hl => h (of_decide_eq_true hl)
    rw [if_neg hless, max_eq_left (not_lt.mp h)]

theorem wrap_eq (x : Rat) : Arc.wrap x = 360 * Int.fract (x / 360) := by
  have hturns : 360 * (x / 360) = x := mul_div_cancel₀ x (by norm_num)
  change x - 360 * ⌊x / 360⌋ = 360 * (x / 360 - ⌊x / 360⌋)
  rw [mul_sub, hturns]

section

variable {a b c : Rat}

theorem angleDifference_eq (a b : Rat) :
    angleDifference a b = 360 * |(a - b) / 360 - round ((a - b) / 360)| := by
  have hdiff : angleDifference a b = lesser (Arc.wrap (a - b)) (360 - Arc.wrap (a - b)) := rfl
  have hrest (x : Rat) : 360 - 360 * x = 360 * (1 - x) := by ring
  have hpos : (0 : Rat) ≤ 360 := by norm_num
  rw [hdiff, lesser_eq_min, wrap_eq, hrest, ← mul_min_of_nonneg _ _ hpos, abs_sub_round_eq_min]

theorem abs_sub_turns (x : Rat) (k : Int) : |x - 360 * k| = 360 * |x / 360 - k| := by
  have hscale : x - 360 * k = 360 * (x / 360 - k) := by ring
  rw [hscale, abs_mul, abs_of_pos (by norm_num : (0 : Rat) < 360)]

theorem exists_angleDifference (a b : Rat) :
    ∃ k : Int, angleDifference a b = |a - b - 360 * k| :=
  ⟨round ((a - b) / 360), by rw [abs_sub_turns, angleDifference_eq]⟩

theorem angleDifference_le (a b : Rat) (k : Int) : angleDifference a b ≤ |a - b - 360 * k| := by
  rw [abs_sub_turns, angleDifference_eq]
  exact mul_le_mul_of_nonneg_left (round_le _ k) (by norm_num)

theorem angleDifference_le_of_eq {d : Rat} {k : Int} (h : a - b - 360 * k = d) :
    angleDifference a b ≤ |d| :=
  h ▸ angleDifference_le a b k

theorem angleDifference_nonneg (a b : Rat) : 0 ≤ angleDifference a b := by
  obtain ⟨k, hk⟩ := exists_angleDifference a b
  rw [hk]
  exact abs_nonneg _

theorem angleDifference_le_half (a b : Rat) : angleDifference a b ≤ 180 := by
  have hhalf : |(a - b) / 360 - round ((a - b) / 360)| ≤ 1 / 2 := abs_sub_round _
  rw [angleDifference_eq]
  linarith

theorem angleDifference_eq_zero_iff : angleDifference a b = 0 ↔ ∃ k : Int, a = b + 360 * k := by
  constructor
  · intro h
    obtain ⟨k, hk⟩ := exists_angleDifference a b
    have hzero : a - b - 360 * k = 0 := abs_eq_zero.mp (hk.symm.trans h)
    exact ⟨k, by linarith⟩
  · rintro ⟨k, rfl⟩
    have hle : angleDifference (b + 360 * k) b ≤ |0| :=
      angleDifference_le_of_eq (k := k) (by ring)
    rw [abs_zero] at hle
    exact le_antisymm hle (angleDifference_nonneg _ _)

/-- The number of turns that is nearest one way is nearest the other way too, taken negative. -/
theorem angleDifference_swap_le (a b : Rat) : angleDifference b a ≤ angleDifference a b := by
  obtain ⟨k, hk⟩ := exists_angleDifference a b
  rw [hk, ← abs_neg]
  refine angleDifference_le_of_eq (k := -k) ?_
  push_cast
  ring

theorem angleDifference_comm (a b : Rat) : angleDifference b a = angleDifference a b :=
  le_antisymm (angleDifference_swap_le a b) (angleDifference_swap_le b a)

theorem angleDifference_turned_le (a b : Rat) (i j : Int) :
    angleDifference (a + 360 * i) (b + 360 * j) ≤ angleDifference a b := by
  obtain ⟨k, hk⟩ := exists_angleDifference a b
  rw [hk]
  refine angleDifference_le_of_eq (k := k + i - j) ?_
  push_cast
  ring

theorem angleDifference_turned (a b : Rat) (i j : Int) :
    angleDifference (a + 360 * i) (b + 360 * j) = angleDifference a b := by
  refine le_antisymm (angleDifference_turned_le a b i j) ?_
  -- the turns are taken back
  have hback (x : Rat) (n : Int) : x + 360 * n + 360 * (-n : Int) = x := by
    push_cast
    ring
  have hle := angleDifference_turned_le (a + 360 * i) (b + 360 * j) (-i) (-j)
  rwa [hback, hback] at hle

theorem angleDifference_triangle (a b c : Rat) :
    angleDifference a c ≤ angleDifference a b + angleDifference b c := by
  obtain ⟨i, hi⟩ := exists_angleDifference a b
  obtain ⟨j, hj⟩ := exists_angleDifference b c
  calc angleDifference a c
      ≤ |(a - b - 360 * i) + (b - c - 360 * j)| := by
        refine angleDifference_le_of_eq (k := i + j) ?_
        push_cast
        ring
    _ ≤ |a - b - 360 * i| + |b - c - 360 * j| := abs_add_le _ _
    _ = angleDifference a b + angleDifference b c := by rw [hi, hj]

end

namespace Angles

/-- The same direction, some whole turns on. -/
def turned (a : Angles Rat) (pitch yaw : Int) : Angles Rat :=
  ⟨a.pitch + 360 * pitch, a.yaw + 360 * yaw⟩

theorem difference_le_iff {p q : Angles Rat} {e : Rat} : p.difference q ≤ e ↔
    angleDifference p.pitch q.pitch ≤ e ∧ angleDifference p.yaw q.yaw ≤ e := by
  rw [difference, greater_eq_max, max_le_iff]

theorem difference_turned_le_iff {p q : Angles Rat} {e : Rat} (i j k l : Int) :
    (p.turned i j).difference (q.turned k l) ≤ e ↔ p.difference q ≤ e := by
  simp only [difference_le_iff, turned, angleDifference_turned]

theorem difference_swap_le_iff {p q : Angles Rat} {e : Rat} :
    q.difference p ≤ e ↔ p.difference q ≤ e := by
  simp only [difference_le_iff, angleDifference_comm p.pitch, angleDifference_comm p.yaw]

end Angles

/-- Two angles are as far apart as their difference is from the nearest number of whole turns. That
is a distance on the circle, so that whole turns and the order of player and target do not matter to
a check of angles. -/
theorem angles_apart_on_circle (a b : Rat) (p q : Angles Rat) (e : Rat) :
    IsLeast (Set.range fun k : Int => |a - b - 360 * k|) (angleDifference a b) ∧
      (0 ≤ angleDifference a b ∧ angleDifference a b ≤ 180) ∧
      (angleDifference a b = 0 ↔ ∃ k : Int, a = b + 360 * k) ∧
      angleDifference b a = angleDifference a b ∧
      (∀ i j : Int, angleDifference (a + 360 * i) (b + 360 * j) = angleDifference a b) ∧
      (∀ c, angleDifference a c ≤ angleDifference a b + angleDifference b c) ∧
      (∀ i j k l : Int, (p.turned i j).difference (q.turned k l) ≤ e ↔ p.difference q ≤ e) ∧
      (q.difference p ≤ e ↔ p.difference q ≤ e) := by
  have hleast : IsLeast (Set.range fun k : Int => |a - b - 360 * k|) (angleDifference a b) := by
    constructor
    · obtain ⟨k, hk⟩ := exists_angleDifference a b
      exact ⟨k, hk.symm⟩
    · rintro _ ⟨k, rfl⟩
      exact angleDifference_le a b k
  exact ⟨hleast, ⟨angleDifference_nonneg a b, angleDifference_le_half a b⟩,
    angleDifference_eq_zero_iff, angleDifference_comm a b, angleDifference_turned a b,
    angleDifference_triangle a b, Angles.difference_turned_le_iff, Angles.difference_swap_le_iff⟩

/-- Across the point where the degrees begin anew. -/
example : angleDifference (350 : Rat) (-710) = 20 := by decide +kernel

end TasScript
