import TasScript.ActiveTools

/-! The running tools as a map from names. Each name has one tool at most, and a tick takes out the
tools whose last tick it is and leaves the others one tick less. -/

namespace TasScript

namespace ActiveTools

open Entries (names mem_of_get? get?_eq_none get?_of_mem mem_of_mem_set nodup_names_set)

structure Sound (a : ActiveTools) : Prop where
  nodup : (names a.tools).Nodup
  named : ∀ e ∈ a.tools, e.2.name = e.1

variable {a : ActiveTools} {name : String} {t u : Tool} {es : Entries Tool}

theorem sound_empty : Sound {} := ⟨.nil, by simp⟩

theorem Sound.of_sublist (h : a.Sound) {tick : Int} (hs : es.Sublist a.tools) :
    Sound ⟨es, tick⟩ where
  nodup := h.nodup.sublist (hs.map _)
  named := fun e he => h.named e (hs.subset he)

theorem Sound.set (h : a.Sound) (ht : t.name = name) :
    Sound { a with tools := a.tools.set name t } where
  nodup := nodup_names_set h.nodup
  named := by
    intro e he
    rcases mem_of_mem_set he with rfl | he
    · exact ht
    · exact h.named e he

theorem Sound.name_of_get? (h : a.Sound) (ht : a.get? name = some t) : t.name = name :=
  h.named _ (mem_of_get? ht)

/-- The tool after one tick, unless it was its last. -/
def after? (t : Tool) : Option Tool :=
  if t.tickElapsed.remaining = some 0 then none else some t.tickElapsed

theorem elapse_snd (es : Entries Tool) :
    (elapse es).2 =
      (es.filter fun e => decide (e.2.tickElapsed.remaining = some 0)).map (·.2.tickElapsed) := by
  induction es with
  | nil => rfl
  | cons e es ih =>
    simp only [elapse, List.filter_cons]
    split
    · rename_i h
      simp [h, ih]
    · rename_i h
      simp [h, ih]

theorem names_elapse_sublist (es : Entries Tool) :
    (names (elapse es).1).Sublist es.names := by
  induction es with
  | nil => exact .slnil
  | cons e es ih =>
    simp only [elapse]
    split
    · exact ih.cons _
    · exact ih.cons_cons _

theorem mem_elapse {e : String × Tool} (he : e ∈ (elapse es).1) :
    ∃ f ∈ es, e = (f.1, f.2.tickElapsed) := by
  induction es with
  | nil => simp [elapse] at he
  | cons f es ih =>
    simp only [elapse] at he
    split at he
    · obtain ⟨f', hf, hfe⟩ := ih he
      exact ⟨f', List.mem_cons_of_mem _ hf, hfe⟩
    · rcases List.mem_cons.mp he with rfl | he
      · exact ⟨f, List.mem_cons_self, rfl⟩
      · obtain ⟨f', hf, hfe⟩ := ih he
        exact ⟨f', List.mem_cons_of_mem _ hf, hfe⟩

theorem get?_elapse (hn : es.names.Nodup) (name : String) :
    Entries.get? name (elapse es).1 = (es.get? name).bind after? := by
  induction es with
  | nil => rfl
  | cons e es ih =>
    obtain ⟨hnot, hn⟩ := List.nodup_cons.mp hn
    simp only [elapse, Entries.get?]
    by_cases he : e.1 = name
    · subst he
      have hnone := get?_eq_none fun h => hnot ((names_elapse_sublist es).subset h)
      split
      · rename_i h
        simp [hnone, after?, h]
      · rename_i h
        simp [Entries.get?, after?, h]
    · rw [if_neg he]
      split
      · exact ih hn
      · rw [Entries.get?, if_neg he, ih hn]

theorem Sound.advance (h : a.Sound) : (a.advance.1).Sound where
  nodup := h.nodup.sublist (names_elapse_sublist a.tools)
  named := by
    intro e he
    obtain ⟨f, hf, rfl⟩ := mem_elapse he
    exact h.named f hf

theorem Sound.get?_advance (h : a.Sound) (name : String) :
    a.advance.1.get? name = (a.get? name).bind after? :=
  get?_elapse h.nodup name

theorem Sound.mem_expired_iff (h : a.Sound) :
    name ∈ a.advance.2.1.map (·.name) ↔
      ∃ t, a.get? name = some t ∧ t.tickElapsed.remaining = some 0 := by
  change name ∈ ((elapse a.tools).2).map (·.name) ↔ _
  simp only [elapse_snd, List.map_map, List.mem_map, List.mem_filter, decide_eq_true_eq]
  constructor
  · rintro ⟨e, ⟨he, hr⟩, rfl⟩
    refine ⟨e.2, get?_of_mem h.nodup ?_, hr⟩
    have hname : e.2.name = e.1 := h.named e he
    change (e.2.name, e.2) ∈ a.tools
    rwa [hname]
  · rintro ⟨t, ht, hr⟩
    exact ⟨(name, t), ⟨mem_of_get? ht, hr⟩, h.name_of_get? (t := t) ht⟩

theorem Sound.nodup_expired (h : a.Sound) : (a.advance.2.1.map (·.name)).Nodup := by
  change (((elapse a.tools).2).map (·.name)).Nodup
  rw [elapse_snd, List.map_map]
  have hsub := List.filter_sublist (p := fun e => decide (e.2.tickElapsed.remaining = some 0))
    (l := a.tools)
  have hmap := List.map_congr_left fun e he => h.named e (hsub.subset he)
  change ((a.tools.filter _).map fun e => e.2.name).Nodup
  rw [hmap]
  exact h.nodup.sublist (hsub.map _)

theorem filter_named (hn : es.names.Nodup) (hname : ∀ e ∈ es, e.2.name = e.1) (name : String) :
    (es.map Prod.snd).filter (fun u => u.name == name) = (es.get? name).toList := by
  induction es with
  | nil => rfl
  | cons e es ih =>
    obtain ⟨hnot, hn⟩ := List.nodup_cons.mp hn
    have hrest := ih hn fun f hf => hname f (List.mem_cons_of_mem _ hf)
    have he : e.2.name = e.1 := hname e List.mem_cons_self
    by_cases hk : e.1 = name
    · subst hk
      rw [get?_eq_none hnot] at hrest
      simp [Entries.get?, he, hrest]
    · simp [Entries.get?, he, hk, hrest]

/-- The tool of a name is the only one of that name among the running tools. -/
theorem Sound.filter_inOrder (h : a.Sound) (name : String) :
    a.inOrder.filter (fun u => u.name == name) = (a.get? name).toList := by
  have hperm := (List.mergeSort_perm (a.tools.map Prod.snd) Tool.runsBefore).filter
    (fun u => u.name == name)
  rw [filter_named h.nodup h.named] at hperm
  change List.Perm (a.inOrder.filter _) _ at hperm
  cases hg : a.get? name with
  | none =>
    rw [show Entries.get? name a.tools = none from hg] at hperm
    exact List.perm_nil.mp hperm
  | some t =>
    rw [show Entries.get? name a.tools = some t from hg] at hperm
    exact List.perm_singleton.mp hperm

end ActiveTools

end TasScript
