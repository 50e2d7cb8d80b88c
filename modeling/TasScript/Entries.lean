/-! Named entries in the order in which the names were first set. -/

namespace TasScript

abbrev Entries (α : Type) : Type := List (String × α)

namespace Entries

variable {α : Type}

/-- A name that is set again keeps its place. -/
def set (name : String) (a : α) : Entries α → Entries α
  | [] => [(name, a)]
  | (key, b) :: es => if key = name then (key, a) :: es else (key, b) :: set name a es

def get? (name : String) : Entries α → Option α
  | [] => none
  | (key, b) :: es => if key = name then some b else get? name es

def erase (name : String) : Entries α → Entries α
  | [] => []
  | (key, b) :: es => if key = name then erase name es else (key, b) :: erase name es

def names (es : Entries α) : List String := es.map Prod.fst

theorem get?_set_self (name : String) (a : α) (es : Entries α) :
    (es.set name a).get? name = some a := by
  induction es with
  | nil => simp [set, get?]
  | cons e es ih => by_cases h : e.1 = name <;> simp [set, get?, h, ih]

theorem get?_set_other {name other : String} (a : α) (es : Entries α) (h : other ≠ name) :
    (es.set name a).get? other = es.get? other := by
  induction es with
  | nil => simp [set, get?, Ne.symm h]
  | cons e es ih =>
    by_cases he : e.1 = name
    · simp [set, get?, he, Ne.symm h]
    · simp only [set, if_neg he, get?, ih]

theorem get?_erase_self (name : String) (es : Entries α) : (es.erase name).get? name = none := by
  induction es with
  | nil => simp [erase, get?]
  | cons e es ih => by_cases h : e.1 = name <;> simp [erase, get?, h, ih]

theorem get?_erase_other {name other : String} (es : Entries α) (h : other ≠ name) :
    (es.erase name).get? other = es.get? other := by
  induction es with
  | nil => simp [erase, get?]
  | cons e es ih =>
    by_cases he : e.1 = name
    · simp [erase, get?, he, Ne.symm h, ih]
    · simp only [erase, if_neg he, get?, ih]

variable {name other : String} {a : α} {es : Entries α}

theorem mem_of_get? (h : es.get? name = some a) : (name, a) ∈ es := by
  induction es with
  | nil => simp [get?] at h
  | cons e es ih =>
    simp only [get?] at h
    split at h
    · rename_i he
      obtain rfl := Option.some.inj h
      subst he
      exact List.mem_cons_self
    · exact List.mem_cons_of_mem _ (ih h)

theorem mem_names_iff : name ∈ names es ↔ (get? name es).isSome = true := by
  constructor
  · intro h
    induction es with
    | nil => simp [names] at h
    | cons e es ih =>
      by_cases he : e.1 = name
      · simp [get?, he]
      · have htail : name ∈ names es := by simpa [names, Ne.symm he] using h
        rw [get?, if_neg he]
        exact ih htail
  · intro h
    obtain ⟨a, ha⟩ := Option.isSome_iff_exists.mp h
    exact List.mem_map.mpr ⟨_, mem_of_get? ha, rfl⟩

theorem get?_eq_none (h : name ∉ names es) : get? name es = none := by
  simpa [mem_names_iff] using h

theorem get?_of_mem (hn : (names es).Nodup) (h : (name, a) ∈ es) : get? name es = some a := by
  induction es with
  | nil => simp at h
  | cons e es ih =>
    obtain ⟨hnot, hn⟩ := List.nodup_cons.mp hn
    rcases List.mem_cons.mp h with rfl | h
    · simp [get?]
    · have hne : e.1 ≠ name := by
        rintro rfl
        exact hnot (List.mem_map.mpr ⟨_, h, rfl⟩)
      rw [get?, if_neg hne, ih hn h]

theorem mem_names_set : other ∈ names (set name a es) ↔ other = name ∨ other ∈ names es := by
  induction es with
  | nil => simp [set, names]
  | cons e es ih =>
    simp only [names] at ih
    by_cases he : e.1 = name
    · subst he
      simp [set, names]
    · simp [set, names, he, ih, or_left_comm]

theorem mem_of_mem_set {e : String × α} (h : e ∈ set name a es) : e = (name, a) ∨ e ∈ es := by
  induction es with
  | nil => simpa [set] using h
  | cons f es ih =>
    by_cases he : f.1 = name
    · subst he
      rcases List.mem_cons.mp (by simpa [set] using h) with rfl | h
      · exact .inl rfl
      · exact .inr (List.mem_cons_of_mem _ h)
    · rw [set, if_neg he] at h
      rcases List.mem_cons.mp h with rfl | h
      · exact .inr List.mem_cons_self
      · exact (ih h).imp_right (List.mem_cons_of_mem _)

theorem nodup_names_set (h : (names es).Nodup) : (names (set name a es)).Nodup := by
  induction es with
  | nil => simp [set, names]
  | cons e es ih =>
    obtain ⟨hnot, hn⟩ := List.nodup_cons.mp h
    by_cases he : e.1 = name
    · simpa [set, he, names] using h
    · rw [set, if_neg he]
      refine List.nodup_cons.mpr ⟨fun hm => ?_, ih hn⟩
      rcases mem_names_set.mp hm with hm | hm
      · exact he hm
      · exact hnot hm

theorem erase_sublist (name : String) (es : Entries α) : (erase name es).Sublist es := by
  induction es with
  | nil => exact .slnil
  | cons e es ih =>
    rw [erase]
    split
    · exact ih.cons _
    · exact ih.cons_cons _

end Entries

end TasScript
