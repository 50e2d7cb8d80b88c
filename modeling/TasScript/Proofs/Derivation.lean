import TasScript.Grammar.Node
import TasScript.Proofs.Ledger

/-! Readings of a grammar, apart from the walk that looks for them. A node binds a token and goes on
with its children, or its alternative is read instead, or it is optional and passed over. -/

namespace TasScript

open Node

theorem Node.getElem?_slots_size (n : Node) (ns : List Node) (k : Nat) :
    (slots (n :: ns))[n.size + k]? = (slots ns)[k]? := by
  rw [slots, ← length_preorder, List.getElem?_append_right (by omega), Nat.add_sub_cancel_left]

/-- `g` is a reading of the nodes, the first of which has the slot number `base`. -/
inductive Derives : Nat → List Node → Ledger → Prop
  | nil (base : Nat) : Derives base [] []
  | bound {base : Nat} {s : Slot} {cs os ns : List Node} {t : Token} {v : Value} {g h : Ledger} :
      s.bind t = .ok v → Derives (base + 1) cs g → Derives (base + (mk s cs os).size) ns h →
      Derives base (mk s cs os :: ns) (.bound t base v :: (g ++ h))
  | otherwise {base : Nat} {s : Slot} {cs os ns : List Node} {g h : Ledger} :
      os ≠ [] → Derives (base + 1 + slotCount cs) os g → Derives (base + (mk s cs os).size) ns h →
      Derives base (mk s cs os :: ns) (g ++ h)
  | skipped {base : Nat} {s : Slot} {cs os ns : List Node} {h : Ledger} :
      s.required = false → Derives (base + (mk s cs os).size) ns h →
      Derives base (mk s cs os :: ns) h

namespace Derives

theorem extra_eq_nil {base : Nat} {ns : List Node} {g : Ledger} (h : Derives base ns g) :
    g.extra = [] := by
  induction h with
  | nil base => rfl
  | bound hb _ _ ihg ihh => simp [ihg, ihh]
  | otherwise hne _ _ ihg ihh => simp [ihg, ihh]
  | skipped hr _ ih => exact ih

theorem mem_range {base : Nat} {ns : List Node} {g : Ledger} (h : Derives base ns g) {i : Nat}
    (hi : i ∈ g.slots) : base ≤ i ∧ i < base + slotCount ns := by
  induction h with
  | nil base => simp at hi
  | bound hb _ _ ihg ihh =>
    simp only [Ledger.slots_bound, Ledger.slots_append, List.mem_cons, List.mem_append] at hi
    simp only [slotCount, size] at ihh ⊢
    rcases hi with rfl | hi | hi
    · omega
    · have := ihg hi
      omega
    · have := ihh hi
      omega
  | otherwise hne _ _ ihg ihh =>
    simp only [Ledger.slots_append, List.mem_append] at hi
    simp only [slotCount, size] at ihh ⊢
    rcases hi with hi | hi
    · have := ihg hi
      omega
    · have := ihh hi
      omega
  | skipped hr _ ih =>
    simp only [slotCount, size] at ih ⊢
    have := ih hi
    omega

theorem slots_increasing {base : Nat} {ns : List Node} {g : Ledger} (h : Derives base ns g) :
    g.slots.Pairwise (· < ·) := by
  induction h with
  | nil base => exact .nil
  | bound hb hg hh ihg ihh =>
    rw [Ledger.slots_bound, Ledger.slots_append, List.pairwise_cons, List.pairwise_append]
    refine ⟨?_, ihg, ihh, ?_⟩
    · intro i hi
      rcases List.mem_append.mp hi with hi | hi
      · have := hg.mem_range hi
        omega
      · have := hh.mem_range hi
        simp only [size] at this
        omega
    · intro i hi j hj
      have hgi := hg.mem_range hi
      have hhj := hh.mem_range hj
      simp only [size] at hhj
      omega
  | otherwise hne hg hh ihg ihh =>
    rw [Ledger.slots_append, List.pairwise_append]
    refine ⟨ihg, ihh, ?_⟩
    intro i hi j hj
    have hgi := hg.mem_range hi
    have hhj := hh.mem_range hj
    simp only [size] at hhj
    omega
  | skipped hr _ ih => exact ih

theorem slots_nodup {base : Nat} {ns : List Node} {g : Ledger} (h : Derives base ns g) :
    g.slots.Nodup :=
  h.slots_increasing.imp Nat.ne_of_lt

/-- What is bound to a slot was read by the slot that has this number in pre-order. -/
theorem exists_slot {base : Nat} {ns : List Node} {g : Ledger} (h : Derives base ns g) {t : Token}
    {i : Nat} {v : Value} (he : .bound t i v ∈ g) :
    ∃ k s, i = base + k ∧ (Node.slots ns)[k]? = some s ∧ s.bind t = .ok v := by
  induction h with
  | nil base => simp at he
  | @bound base s cs os ns u w g h hb _ _ ihg ihh =>
    rcases List.mem_cons.mp he with hu | he
    · obtain ⟨rfl, rfl, rfl⟩ := Entry.bound.inj hu
      exact ⟨0, s, rfl, by simp [Node.slots, preorder], hb⟩
    · rcases List.mem_append.mp he with he | he
      · obtain ⟨k, r, rfl, hk, hr⟩ := ihg he
        refine ⟨k + 1, r, by omega, ?_, hr⟩
        have hlt := (List.getElem?_eq_some_iff.mp hk).1
        simpa [Node.slots, preorder, List.append_assoc, List.getElem?_append_left hlt] using hk
      · obtain ⟨k, r, rfl, hk, hr⟩ := ihh he
        exact ⟨(mk s cs os).size + k, r, by omega, (getElem?_slots_size _ _ _).trans hk, hr⟩
  | @otherwise base s cs os ns g h hne _ _ ihg ihh =>
    rcases List.mem_append.mp he with he | he
    · obtain ⟨k, r, rfl, hk, hr⟩ := ihg he
      refine ⟨slotCount cs + k + 1, r, by omega, ?_, hr⟩
      have hlt := (List.getElem?_eq_some_iff.mp hk).1
      simp only [Node.slots, preorder, List.cons_append, List.getElem?_cons_succ, List.append_assoc]
      rw [← length_slots, List.getElem?_append_right (by omega), Nat.add_sub_cancel_left,
        List.getElem?_append_left hlt, hk]
    · obtain ⟨k, r, rfl, hk, hr⟩ := ihh he
      exact ⟨(mk s cs os).size + k, r, by omega, (getElem?_slots_size _ _ _).trans hk, hr⟩
  | @skipped base s cs os ns h hr _ ih =>
    obtain ⟨k, r, rfl, hk, hb⟩ := ih he
    exact ⟨(mk s cs os).size + k, r, by omega, (getElem?_slots_size _ _ _).trans hk, hb⟩

end Derives

end TasScript
