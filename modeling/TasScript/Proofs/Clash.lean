import Mathlib.Data.List.Nodup
import TasScript.Registry

/-! Registries come about from schemas no two of which share a name or a place in the order. Which
clash is reported depends on the order in which the schemas are given; the registry does not. -/

namespace TasScript

namespace Registry

def Unique (schemas : List Schema) : Prop :=
  (schemas.map (·.name)).Nodup ∧ (schemas.map (·.priority)).Nodup

/-- The schema repeats a name of earlier ones, which counts first, or the priority of one of
them. -/
def Clashes (earlier : List Schema) (s : Schema) (d : Defect) : Prop :=
  (∃ e ∈ earlier, e.name = s.name) ∧ d = .duplicateTool s.name ∨
    (∀ e ∈ earlier, e.name ≠ s.name) ∧
      ∃ e ∈ earlier, e.priority = s.priority ∧ d = .sharedPriority e.name s.name s.priority

variable {earlier schemas others : List Schema} {s t : Schema} {d : Defect}

theorem unique_nil : Unique [] := ⟨List.nodup_nil, List.nodup_nil⟩

theorem unique_concat : Unique (earlier ++ [s]) ↔
    Unique earlier ∧ ∀ e ∈ earlier, e.name ≠ s.name ∧ e.priority ≠ s.priority := by
  simp only [Unique, List.map_append, List.map_cons, List.map_nil, List.nodup_append,
    List.nodup_singleton, List.mem_singleton, List.mem_map, forall_eq, forall_exists_index, and_imp,
    forall_apply_eq_imp_iff₂, true_and]
  constructor
  · rintro ⟨⟨hn, hname⟩, hp, hpriority⟩
    exact ⟨⟨hn, hp⟩, fun e he => ⟨hname e he, hpriority e he⟩⟩
  · rintro ⟨⟨hn, hp⟩, h⟩
    exact ⟨⟨hn, fun e he => (h e he).1⟩, hp, fun e he => (h e he).2⟩

theorem Unique.of_append (h : Unique (earlier ++ others)) : Unique earlier := by
  simp only [Unique, List.map_append] at h
  exact ⟨h.1.of_append_left, h.2.of_append_left⟩

theorem Unique.perm (h : Unique schemas) (hp : others.Perm schemas) : Unique others :=
  ⟨(hp.map _).nodup_iff.mpr h.1, (hp.map _).nodup_iff.mpr h.2⟩

/-- Where a key tells the schemas apart, the one that is found under it is the only one. -/
theorem find?_eq_some_iff {κ : Type} [BEq κ] [LawfulBEq κ] {key : Schema → κ} {k : κ}
    (h : (schemas.map key).Nodup) :
    (schemas.find? fun s => key s == k) = some s ↔ s ∈ schemas ∧ key s = k := by
  constructor
  · intro hfind
    exact ⟨List.mem_of_find?_eq_some hfind, by simpa using List.find?_some hfind⟩
  · rintro ⟨hs, rfl⟩
    have hsome : (schemas.find? fun t => key t == key s).isSome = true :=
      List.find?_isSome.mpr ⟨s, hs, BEq.rfl⟩
    obtain ⟨t, ht⟩ := Option.isSome_iff_exists.mp hsome
    have hsame : key t = key s := by simpa using List.find?_some ht
    rw [ht, List.inj_on_of_nodup_map h (List.mem_of_find?_eq_some ht) hs hsame]

theorem clash?_eq_none_iff : clash? earlier s = none ↔
    ∀ e ∈ earlier, e.name ≠ s.name ∧ e.priority ≠ s.priority := by
  unfold clash?
  split
  · rename_i hany
    obtain ⟨e, he, hname⟩ := List.any_eq_true.mp hany
    refine iff_of_false (by simp) fun h => (h e he).1 (by simpa using hname)
  · rename_i hany
    have hnames : ∀ e ∈ earlier, e.name ≠ s.name := by simpa using hany
    split
    · rename_i e hfind
      refine iff_of_false (by simp) fun h => (h e (List.mem_of_find?_eq_some hfind)).2 ?_
      simpa using List.find?_some hfind
    · rename_i hfind
      refine iff_of_true rfl fun e he => ⟨hnames e he, ?_⟩
      simpa using List.find?_eq_none.mp hfind e he

/-- Each priority of the earlier schemas has one holder, which is reported. -/
theorem clash?_eq_some_iff (hu : Unique earlier) :
    clash? earlier s = some d ↔ Clashes earlier s d := by
  have hany : (earlier.any fun e => e.name == s.name) = true ↔ ∃ e ∈ earlier, e.name = s.name := by
    simp
  unfold clash? Clashes
  by_cases hname : ∃ e ∈ earlier, e.name = s.name
  · rw [if_pos (hany.mpr hname), Option.some.injEq]
    constructor
    · intro h
      exact .inl ⟨hname, h.symm⟩
    · rintro (⟨-, rfl⟩ | ⟨hnames, -⟩)
      · rfl
      · obtain ⟨e, he, hsame⟩ := hname
        exact absurd hsame (hnames e he)
  · have hnames : ∀ e ∈ earlier, e.name ≠ s.name := by simpa using hname
    rw [if_neg (mt hany.mp hname)]
    constructor
    · intro h
      split at h
      · rename_i e hfind
        obtain ⟨he, hpriority⟩ := (find?_eq_some_iff hu.2).mp hfind
        exact .inr ⟨hnames, e, he, hpriority, (Option.some.inj h).symm⟩
      · simp at h
    · rintro (⟨hsame, -⟩ | ⟨-, e, he, hpriority, rfl⟩)
      · exact absurd hsame hname
      · rw [(find?_eq_some_iff hu.2).mpr ⟨he, hpriority⟩]

theorem clash?_of_unique {rest : List Schema} (h : Unique (earlier ++ s :: rest)) :
    clash? earlier s = none := by
  rw [List.append_cons] at h
  exact clash?_eq_none_iff.mpr (unique_concat.mp h.of_append).2

theorem firstClash?_eq_none_iff (hu : Unique earlier) :
    firstClash? earlier schemas = none ↔ Unique (earlier ++ schemas) := by
  -- what is passed goes over to the earlier schemas, which stay free of clashes
  induction schemas generalizing earlier with
  | nil => simp [firstClash?, hu]
  | cons s rest ih =>
    rw [firstClash?]
    cases hc : clash? earlier s with
    | some d =>
      refine iff_of_false (by simp) fun h => ?_
      simp [clash?_of_unique h] at hc
    | none =>
      rw [List.append_cons earlier s rest]
      exact ih (unique_concat.mpr ⟨hu, clash?_eq_none_iff.mp hc⟩)

/-- The first clash is that of a schema all before which are free of clashes. -/
theorem firstClash?_eq_some_iff (hu : Unique earlier) :
    firstClash? earlier schemas = some d ↔ ∃ pre s post, schemas = pre ++ s :: post ∧
      Unique (earlier ++ pre) ∧ Clashes (earlier ++ pre) s d := by
  induction schemas generalizing earlier with
  | nil => simp [firstClash?]
  | cons s rest ih =>
    rw [firstClash?]
    cases hc : clash? earlier s with
    | some c =>
      have hclash : Clashes earlier s c := (clash?_eq_some_iff hu).mp hc
      constructor
      · intro h
        obtain rfl := Option.some.inj h
        exact ⟨[], s, rest, rfl, by simpa using hu, by simpa using hclash⟩
      · rintro ⟨pre, t, post, heq, hpre, ht⟩
        cases pre with
        | nil =>
          obtain ⟨rfl, rfl⟩ := List.cons.inj heq
          rw [List.append_nil] at ht
          exact hc.symm.trans ((clash?_eq_some_iff hu).mpr ht)
        | cons u pre =>
          obtain ⟨rfl, rfl⟩ := List.cons.inj heq
          simp [clash?_of_unique hpre] at hc
    | none =>
      rw [ih (unique_concat.mpr ⟨hu, clash?_eq_none_iff.mp hc⟩)]
      constructor
      · rintro ⟨pre, t, post, rfl, hpre, ht⟩
        rw [← List.append_cons] at hpre ht
        exact ⟨s :: pre, t, post, rfl, hpre, ht⟩
      · rintro ⟨pre, t, post, heq, hpre, ht⟩
        cases pre with
        | nil =>
          obtain ⟨rfl, rfl⟩ := List.cons.inj heq
          rw [List.append_nil] at ht
          simp [(clash?_eq_some_iff hu).mpr ht] at hc
        | cons u pre =>
          obtain ⟨rfl, rfl⟩ := List.cons.inj heq
          rw [List.append_cons] at hpre ht
          exact ⟨pre, t, post, rfl, hpre, ht⟩

theorem perm_byPriority (schemas : List Schema) : (byPriority schemas).Perm schemas :=
  List.mergeSort_perm schemas _

theorem sorted_byPriority (schemas : List Schema) :
    (byPriority schemas).Pairwise fun a b => a.priority ≤ b.priority := by
  have h : (byPriority schemas).Pairwise fun a b => decide (a.priority ≤ b.priority) = true :=
    List.pairwise_mergeSort
      (fun a b c hab hbc => by simpa using Nat.le_trans (by simpa using hab) (by simpa using hbc))
      (fun a b => by simpa using Nat.le_total a.priority b.priority) schemas
  simpa only [decide_eq_true_eq] using h

theorem rising_byPriority (h : Unique schemas) :
    (byPriority schemas).Pairwise fun a b => a.priority < b.priority := by
  have hne : (byPriority schemas).Pairwise fun a b => a.priority ≠ b.priority :=
    List.pairwise_map.mp (h.perm (perm_byPriority schemas)).2
  exact ((sorted_byPriority schemas).and hne).imp fun hab => Nat.lt_of_le_of_ne hab.1 hab.2

theorem byPriority_eq (h : Unique schemas) (hp : others.Perm schemas) :
    byPriority others = byPriority schemas := by
  -- of lists with the same members only one is strictly rising
  refine List.Perm.eq_of_pairwise (fun a b _ _ hab hba => ?_) (rising_byPriority (h.perm hp))
    (rising_byPriority h) ((perm_byPriority others).trans (hp.trans (perm_byPriority schemas).symm))
  exact absurd hab (Nat.lt_asymm hba)

theorem ofList_of_unique (h : Unique schemas) : ofList schemas = .ok ⟨byPriority schemas⟩ := by
  rw [ofList, (firstClash?_eq_none_iff unique_nil).mpr h]

theorem ofList_eq_error_iff : ofList schemas = .error d ↔ ∃ pre s post,
    schemas = pre ++ s :: post ∧ Unique pre ∧ Clashes pre s d := by
  have hfirst : ofList schemas = .error d ↔ firstClash? [] schemas = some d := by
    unfold ofList
    split
    · rename_i c hc
      rw [hc, Except.error.injEq, Option.some.injEq]
    · rename_i hc
      simp [hc]
  rw [hfirst, firstClash?_eq_some_iff unique_nil]
  simp only [List.nil_append]

theorem ofList_eq_ok {r : Registry} (h : ofList schemas = .ok r) :
    Unique schemas ∧ r = ⟨byPriority schemas⟩ := by
  unfold ofList at h
  split at h
  · simp at h
  · rename_i hc
    exact ⟨(firstClash?_eq_none_iff unique_nil).mp hc, (Except.ok.inj h).symm⟩

/-- The answers of a registry of the given schemas. -/
structure Serves (r : Registry) (schemas : List Schema) : Prop where
  lookup : ∀ name s, r.lookup? name = some s ↔ s ∈ schemas ∧ s.name = name
  contains : ∀ name, r.contains name = true ↔ ∃ s ∈ schemas, s.name = name
  once : r.schemas.Perm schemas
  rising : r.schemas.Pairwise fun a b => a.priority < b.priority
  names : r.names = r.schemas.map (·.name)
  size : r.size = schemas.length

theorem serves_byPriority (h : Unique schemas) : Serves ⟨byPriority schemas⟩ schemas := by
  have hp := perm_byPriority schemas
  have hlookup (name : String) (s : Schema) :
      lookup? ⟨byPriority schemas⟩ name = some s ↔ s ∈ schemas ∧ s.name = name := by
    rw [lookup?, find?_eq_some_iff (h.perm hp).1, hp.mem_iff]
  refine ⟨hlookup, fun name => ?_, hp, rising_byPriority h, rfl, hp.length_eq⟩
  rw [contains, Option.isSome_iff_exists]
  exact exists_congr fun s => hlookup name s

/-- A registry is built of schemas no two of which share a name or a priority; otherwise the first
schema that repeats either is reported, with the holder of the priority it repeats. A registry that
is built knows the schemas by their names and lists each once in rising order, and the same registry
is built of them in any order. -/
theorem built_of_unique (schemas : List Schema) :
    ((∃ r, ofList schemas = .ok r) ↔ Unique schemas) ∧
      (∀ d, ofList schemas = .error d ↔ ∃ pre s post,
        schemas = pre ++ s :: post ∧ Unique pre ∧ Clashes pre s d) ∧
      ∀ r, ofList schemas = .ok r →
        r.Serves schemas ∧ ∀ others, others.Perm schemas → ofList others = .ok r := by
  refine ⟨⟨fun ⟨r, hr⟩ => (ofList_eq_ok hr).1, fun h => ⟨_, ofList_of_unique h⟩⟩,
    fun d => ofList_eq_error_iff, fun r hr => ?_⟩
  obtain ⟨hu, rfl⟩ := ofList_eq_ok hr
  refine ⟨serves_byPriority hu, fun others hp => ?_⟩
  rw [ofList_of_unique (hu.perm hp), byPriority_eq hu hp]

/-- The catalogue gives the same registry when it is read from its end. -/
theorem built_of_unique_catalogue :
    ofList catalogue = .ok builtIn ∧ catalogue.reverse.Perm catalogue ∧
      builtIn.Serves catalogue ∧ ofList catalogue.reverse = .ok builtIn := by
  have hperm : catalogue.reverse.Perm catalogue := List.reverse_perm catalogue
  obtain ⟨hserves, hany⟩ := (built_of_unique catalogue).2.2 builtIn ofList_catalogue
  exact ⟨ofList_catalogue, hperm, hserves, hany _ hperm⟩

end Registry

end TasScript
