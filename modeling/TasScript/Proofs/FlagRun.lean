import TasScript.Invocation.Flags
import TasScript.Proofs.Walk

/-! Readings of flags. Each step of the loop keeps a token that fits no flag or reads one more flag
with its children; the blocks of slots of two flags never overlap. -/

namespace TasScript

namespace Node

theorem size_pos (n : Node) : 0 < n.size := by
  cases n
  simp only [size]
  omega

theorem size_eq (n : Node) : n.size = 1 + slotCount n.children + slotCount n.otherwise := by
  cases n
  rfl

theorem mem_placed_range {base i : Nat} {n : Node} {ns : List Node}
    (h : (n, i) ∈ placed base ns) : base ≤ i ∧ i + n.size ≤ base + slotCount ns := by
  induction ns generalizing base with
  | nil => simp [placed] at h
  | cons m ns ih =>
    simp only [slotCount]
    rcases List.mem_cons.mp h with he | h
    · obtain ⟨rfl, rfl⟩ := Prod.mk.inj he
      omega
    · have := ih h
      omega

theorem placed_disjoint {base i j : Nat} {m n : Node} {ns : List Node}
    (hm : (m, i) ∈ placed base ns) (hn : (n, j) ∈ placed base ns) :
    m = n ∧ i = j ∨ i + m.size ≤ j ∨ j + n.size ≤ i := by
  induction ns generalizing base with
  | nil => simp [placed] at hm
  | cons k ns ih =>
    rcases List.mem_cons.mp hm with hme | hm <;> rcases List.mem_cons.mp hn with hne | hn
    · obtain ⟨rfl, rfl⟩ := Prod.mk.inj hme
      obtain ⟨rfl, rfl⟩ := Prod.mk.inj hne
      exact .inl ⟨rfl, rfl⟩
    · obtain ⟨rfl, rfl⟩ := Prod.mk.inj hme
      exact .inr (.inl (mem_placed_range hn).1)
    · obtain ⟨rfl, rfl⟩ := Prod.mk.inj hne
      exact .inr (.inr (mem_placed_range hm).1)
    · exact ih hm hn

theorem mem_of_placed {base : Nat} {c : Node × Nat} {ns : List Node}
    (h : c ∈ placed base ns) : c.1 ∈ ns := by
  induction ns generalizing base with
  | nil => simp [placed] at h
  | cons n ns ih =>
    rcases List.mem_cons.mp h with rfl | h
    · exact List.mem_cons_self
    · exact List.mem_cons_of_mem _ (ih h)

theorem eq_of_placed {base : Nat} {c d : Node × Nat} {ns : List Node}
    (hc : c ∈ placed base ns) (hd : d ∈ placed base ns) (h : c.2 = d.2) : c = d := by
  have hcpos := c.1.size_pos
  have hdpos := d.1.size_pos
  rcases placed_disjoint hc hd with ⟨hn, hi⟩ | hdis | hdis
  · exact Prod.ext hn hi
  · omega
  · omega

theorem getElem?_slots_of_placed {base i k : Nat} {n : Node} {ns : List Node} {s : Slot}
    (h : (n, i) ∈ placed base ns) (hs : (slots [n])[k]? = some s) :
    ∃ j, i = base + j ∧ (slots ns)[j + k]? = some s := by
  induction ns generalizing base with
  | nil => simp [placed] at h
  | cons m ns ih =>
    rcases List.mem_cons.mp h with he | h
    · obtain ⟨rfl, rfl⟩ := Prod.mk.inj he
      refine ⟨0, rfl, ?_⟩
      rw [slots, slots, List.append_nil] at hs
      have hk := (List.getElem?_eq_some_iff.mp hs).1
      rw [slots, Nat.zero_add, List.getElem?_append_left hk, hs]
    · obtain ⟨j, rfl, hj⟩ := ih h
      exact ⟨m.size + j, by omega, by rw [Nat.add_assoc, getElem?_slots_size, hj]⟩

end Node

open Node

/-- `g` is a reading of the flags whose slots are `used`, the latest first. -/
inductive FlagRun (candidates : List (Node × Nat)) : List Nat → Ledger → Prop
  | nil : FlagRun candidates [] []
  | kept {used : List Nat} {g : Ledger} {t : Token} :
      FlagRun candidates used g → (∀ c ∈ candidates, c.1.slot.fits t = false) →
      FlagRun candidates used (g ++ [.kept t])
  | taken {used : List Nat} {g h : Ledger} {n : Node} {i : Nat} {t : Token} {v : Value} :
      FlagRun candidates used g → (n, i) ∈ candidates → i ∉ used → n.slot.fits t = true →
      n.slot.bind t = .ok v → Derives (i + 1) n.children h →
      FlagRun candidates (i :: used) (g ++ .bound t i v :: h)

namespace FlagRun

variable {candidates : List (Node × Nat)} {used : List Nat} {g : Ledger} {base : Nat}
  {ns : List Node}

theorem mem_children_range {n : Node} {i x : Nat} {h : Ledger}
    (hd : Derives (i + 1) n.children h) (hx : x ∈ h.slots) : i < x ∧ x < i + n.size := by
  have hr := hd.mem_range hx
  have hs := n.size_eq
  omega

theorem mem_range (hg : FlagRun candidates used g) {x : Nat} (hx : x ∈ g.slots) :
    ∃ n i, (n, i) ∈ candidates ∧ i ∈ used ∧ i ≤ x ∧ x < i + n.size := by
  induction hg with
  | nil => simp at hx
  | kept _ _ ih => exact ih (by simpa using hx)
  | @taken used g h n i t v _ hc _ _ _ hd ih =>
    simp only [Ledger.slots_append, Ledger.slots_bound, List.mem_append, List.mem_cons] at hx
    rcases hx with hx | rfl | hx
    · obtain ⟨m, j, hm, hj, hr⟩ := ih hx
      exact ⟨m, j, hm, List.mem_cons_of_mem _ hj, hr⟩
    · have := n.size_pos
      exact ⟨n, x, hc, List.mem_cons_self, by omega⟩
    · have := mem_children_range hd hx
      exact ⟨n, i, hc, List.mem_cons_self, by omega⟩

theorem notMem_of_notMem_used (hg : FlagRun (placed base ns) used g) {n : Node} {i x : Nat}
    (hn : (n, i) ∈ placed base ns) (hi : i ∉ used) (hx : i ≤ x ∧ x < i + n.size) :
    x ∉ g.slots := by
  intro hm
  obtain ⟨m, j, hc, hj, hr⟩ := hg.mem_range hm
  rcases placed_disjoint hn hc with ⟨_, rfl⟩ | hd | hd
  · exact hi hj
  · omega
  · omega

theorem slots_nodup (hg : FlagRun (placed base ns) used g) : g.slots.Nodup := by
  induction hg with
  | nil => exact .nil
  | kept _ _ ih => simpa using ih
  | @taken used g h n i t v hg hc hi _ _ hd ih =>
    rw [Ledger.slots_append, Ledger.slots_bound, List.nodup_append, List.nodup_cons]
    refine ⟨ih, ⟨?_, hd.slots_nodup⟩, ?_⟩
    · intro hx
      have := (mem_children_range hd hx).1
      omega
    · intro x hx y hy he
      subst he
      refine hg.notMem_of_notMem_used hc hi ?_ hx
      rcases List.mem_cons.mp hy with rfl | hy
      · have := n.size_pos
        omega
      · have := mem_children_range hd hy
        omega

/-- A flag that was used is read once, and the slots of its block are written by that reading. -/
theorem exists_block (hg : FlagRun (placed base ns) used g) {n : Node} {i : Nat}
    (hn : (n, i) ∈ placed base ns) (hi : i ∈ used) :
    ∃ h, Derives (i + 1) n.children h ∧
      ∀ x, i ≤ x → x < i + n.size → (x ∈ g.slots ↔ x = i ∨ x ∈ h.slots) := by
  induction hg with
  | nil => simp at hi
  | kept _ _ ih =>
    obtain ⟨h, hd, hb⟩ := ih hi
    exact ⟨h, hd, by simpa using hb⟩
  | @taken used g h m j t v hg hc hj _ _ hd ih =>
    rcases placed_disjoint hn hc with ⟨rfl, rfl⟩ | hdis | hdis
    · refine ⟨h, hd, fun x hl hr => ?_⟩
      have hx := hg.notMem_of_notMem_used hn hj ⟨hl, hr⟩
      simp [hx]
    -- the flag was read before, and the new reading stays outside its block
    all_goals
      have hne : i ≠ j := by
        have := n.size_pos
        have := m.size_pos
        omega
      obtain ⟨h', hd', hb⟩ := ih ((List.mem_cons.mp hi).resolve_left hne)
      refine ⟨h', hd', fun x hl hr => ?_⟩
      have hxj : x ≠ j := by
        have := m.size_pos
        omega
      have hxh : x ∉ h.slots := by
        intro hx
        have := mem_children_range hd hx
        omega
      simpa [hxj, hxh] using hb x hl hr

theorem exists_slot (hg : FlagRun (placed base ns) used g) {t : Token} {i : Nat} {v : Value}
    (he : .bound t i v ∈ g) :
    ∃ k s, i = base + k ∧ (slots ns)[k]? = some s ∧ s.bind t = .ok v := by
  induction hg with
  | nil => simp at he
  | kept _ _ ih => exact ih (by simpa using he)
  | @taken used g h n j u w _ hc _ _ hb hd ih =>
    rcases List.mem_append.mp he with he | he
    · exact ih he
    · have hone : Derives j [n] (.bound u j w :: h) := by
        cases n
        exact derives_single hb hd
      obtain ⟨k, s, rfl, hk, hs⟩ := hone.exists_slot he
      obtain ⟨r, rfl, hr⟩ := getElem?_slots_of_placed hc hk
      exact ⟨r + k, s, by omega, hr, hs⟩

/-- A flag that was used was read from a token that fits it. -/
theorem exists_taken (hg : FlagRun candidates used g) {i : Nat} (hi : i ∈ used) :
    ∃ n t v, (n, i) ∈ candidates ∧ n.slot.fits t = true ∧ n.slot.bind t = .ok v ∧
      .bound t i v ∈ g := by
  induction hg with
  | nil => simp at hi
  | kept _ _ ih =>
    obtain ⟨n, t, v, hn, hf, hb, he⟩ := ih hi
    exact ⟨n, t, v, hn, hf, hb, List.mem_append_left _ he⟩
  | @taken used g h m j u w _ hc _ hf hb _ ih =>
    rcases List.mem_cons.mp hi with rfl | hi
    · exact ⟨m, u, w, hc, hf, hb, by simp⟩
    · obtain ⟨n, t, v, hn, hf', hb', he⟩ := ih hi
      exact ⟨n, t, v, hn, hf', hb', List.mem_append_left _ he⟩

theorem fits_of_mem_extra (hg : FlagRun candidates used g) {t : Token} (ht : t ∈ g.extra) :
    ∀ c ∈ candidates, c.1.slot.fits t = false := by
  induction hg with
  | nil => simp at ht
  | kept _ hnone ih =>
    rw [Ledger.extra_append, List.mem_append] at ht
    rcases ht with ht | ht
    · exact ih ht
    · obtain rfl : t = _ := by simpa using ht
      exact hnone
  | taken _ _ _ _ _ hd ih =>
    exact ih (by simpa [hd.extra_eq_nil] using ht)

/-- Of a flag without children nothing is read but the flag itself. -/
theorem entry_cases (hg : FlagRun candidates used g)
    (hleaf : ∀ c ∈ candidates, c.1.children = []) {e : Entry}
    (he : e ∈ g) :
    (∃ t, e = .kept t ∧ ∀ c ∈ candidates, c.1.slot.fits t = false) ∨
      ∃ c ∈ candidates, ∃ t v, e = .bound t c.2 v ∧ c.1.slot.fits t = true ∧
        c.1.slot.bind t = .ok v := by
  induction hg with
  | nil => simp at he
  | kept _ hnone ih =>
    rcases List.mem_append.mp he with he | he
    · exact ih he
    · exact .inl ⟨_, List.mem_singleton.mp he, hnone⟩
  | @taken used g h n i t v _ hc _ hf hb hd ih =>
    have hnil : h = [] := by
      rw [hleaf _ hc] at hd
      cases hd
      rfl
    rw [hnil] at he
    rcases List.mem_append.mp he with he | he
    · exact ih he
    · exact .inr ⟨(n, i), hc, t, v, List.mem_singleton.mp he, hf, hb⟩

end FlagRun

end TasScript
