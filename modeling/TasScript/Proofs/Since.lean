import TasScript.Data.List

/-! What stands at the end of a run: something has happened, and nothing has undone it since. -/

namespace TasScript

variable {α : Type}

/-- Of the entries, one has `p`, and none behind it has `q`. -/
def Since (p q : α → Prop) (xs : List α) : Prop :=
  ∃ past x future, xs = past ++ x :: future ∧ p x ∧ ∀ y ∈ future, ¬ q y

variable {p q : α → Prop} {xs : List α} {x : α}

theorem since_nil : ¬ Since p q [] := by
  rintro ⟨past, x, future, h, -⟩
  simp at h

theorem since_concat : Since p q (xs ++ [x]) ↔ p x ∨ ¬ q x ∧ Since p q xs := by
  constructor
  · rintro ⟨past, y, future, he, hy, hq⟩
    rcases List.concat_eq_append_cons he with ⟨-, rfl, -⟩ | ⟨init, rfl, rfl⟩
    · exact .inl hy
    · exact .inr ⟨hq x (by simp), past, y, init, rfl, hy, fun z hz => hq z (by simp [hz])⟩
  · rintro (hx | ⟨hx, past, y, future, rfl, hy, hq⟩)
    · exact ⟨xs, x, [], rfl, hx, by simp⟩
    · refine ⟨past, y, future ++ [x], by simp, hy, ?_⟩
      intro z hz
      rcases List.mem_append.mp hz with hz | hz
      · exact hq z hz
      · obtain rfl := List.mem_singleton.mp hz
        exact hx

end TasScript
