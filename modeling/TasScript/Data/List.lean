/-! Lists read from their ends: the last item with an image, the last item of a list that is split,
and what is left of a list from some place on. -/

namespace List

variable {α β : Type}

theorem findSome?_cons_eq_or (f : α → Option β) (a : α) (as : List α) :
    (a :: as).findSome? f = (f a).or (as.findSome? f) := by
  rw [findSome?_cons]
  cases f a <;> rfl

theorem findSome?_reverse_cons (f : α → Option β) (a : α) (as : List α) :
    (a :: as).reverse.findSome? f = (as.reverse.findSome? f).or (f a) := by
  rw [reverse_cons, findSome?_append, findSome?_cons_eq_or, findSome?_nil, Option.or_none]

variable {f : α → Option β} {as : List α} {b : β}

theorem findSome?_reverse_eq_none_iff :
    as.reverse.findSome? f = none ↔ ∀ i : Nat, as[i]?.bind f = none := by
  rw [findSome?_eq_none_iff]
  constructor
  · intro h i
    cases ha : as[i]? with
    | none => rfl
    | some a => exact h a (mem_reverse.mpr (mem_of_getElem? ha))
  · intro h a ha
    obtain ⟨i, hi⟩ := getElem?_of_mem (mem_reverse.mp ha)
    simpa [hi] using h i

/-- From the back, the first item that has an image is the last one that has. -/
theorem findSome?_reverse_eq_some_iff : as.reverse.findSome? f = some b ↔
    ∃ i : Nat, as[i]?.bind f = some b ∧ ∀ j, i < j → as[j]?.bind f = none := by
  induction as with
  | nil => simp
  | cons a as ih =>
    rw [findSome?_reverse_cons]
    constructor
    · intro h
      cases hlater : as.reverse.findSome? f with
      | some c =>
        rw [hlater, Option.some_or] at h
        obtain ⟨i, hi, hnone⟩ := ih.mp (hlater.trans h)
        refine ⟨i + 1, hi, fun j hj => ?_⟩
        obtain ⟨k, rfl⟩ := Nat.exists_eq_add_of_lt (Nat.zero_lt_of_lt hj)
        exact hnone _ (by omega)
      | none =>
        rw [hlater, Option.none_or] at h
        refine ⟨0, h, fun j hj => ?_⟩
        obtain ⟨k, rfl⟩ := Nat.exists_eq_add_of_lt hj
        exact findSome?_reverse_eq_none_iff.mp hlater _
    · rintro ⟨i, hi, hnone⟩
      cases i with
      | zero =>
        have hlater : as.reverse.findSome? f = none :=
          findSome?_reverse_eq_none_iff.mpr fun j => hnone (j + 1) (Nat.succ_pos j)
        rw [hlater, Option.none_or]
        exact hi
      | succ i =>
        have hlater : as.reverse.findSome? f = some b :=
          ih.mpr ⟨i, hi, fun j hj => hnone (j + 1) (Nat.succ_lt_succ hj)⟩
        rw [hlater, Option.some_or]

/-- One of the items of a list that ends in `x` is `x` itself or stands before it. -/
theorem concat_eq_append_cons {h before after : List α} {x y : α}
    (he : h ++ [x] = before ++ y :: after) :
    before = h ∧ y = x ∧ after = [] ∨ ∃ init, after = init ++ [x] ∧ h = before ++ y :: init := by
  rcases eq_nil_or_concat after with rfl | ⟨init, z, rfl⟩
  · obtain ⟨hinit, hlast⟩ := append_inj' he rfl
    exact .inl ⟨hinit.symm, by simpa using hlast.symm, rfl⟩
  · have hcons : h ++ [x] = (before ++ y :: init) ++ [z] := by simpa using he
    obtain ⟨hinit, hlast⟩ := append_inj' hcons rfl
    obtain rfl : x = z := by simpa using hlast
    exact .inr ⟨init, concat_eq_append, hinit⟩

/-- A list stands at a place where its first item stands there and its rest behind it. -/
theorem cons_prefix_drop {xs : List α} {a : α} {i : Nat} :
    a :: as <+: xs.drop i ↔ xs[i]? = some a ∧ as <+: xs.drop (i + 1) := by
  cases h : xs[i]? with
  | none =>
    have hnil : xs.drop i = [] := drop_eq_nil_of_le (getElem?_eq_none_iff.mp h)
    simp [hnil]
  | some b =>
    obtain ⟨hi, rfl⟩ := getElem?_eq_some_iff.mp h
    rw [drop_eq_getElem_cons hi, cons_prefix_cons, Option.some.injEq, eq_comm]

end List
