import TasScript.Invocation.Walk

/-! Every way a walk can go. A node binds its slot and goes on with its children, or turns to its
alternative, or is passed over; whatever fails does so at the token the walk has come to. -/

namespace TasScript

/-- The kinds in which a single node can fail. -/
def RefusalKind.isOfNode : RefusalKind → Bool
  | missingArguments | argumentMismatch | typeMismatch | unitMismatch | outOfRange => true
  | _ => false

namespace Mismatch

def isOfNode (m : Mismatch) : Bool := m.kind.isOfNode

theorem kind_ne_of_isOfNode {m : Mismatch} {k : RefusalKind} (h : m.isOfNode = true)
    (hk : k.isOfNode = false) : m.kind ≠ k := by
  rintro rfl
  exact absurd (h.symm.trans hk) (by simp)

end Mismatch

namespace Slot

variable {s : Slot} {t : Token} {m : Mismatch}

theorem kind_unitMismatch (s : Slot) (suffix : String) :
    (s.unitMismatch suffix).kind = .unitMismatch := by
  unfold unitMismatch
  split
  · rfl
  · split <;> rfl

theorem kind_of_bindAmount {x : Float} (h : s.bindAmount x = .error m) :
    m.kind = .outOfRange := by
  unfold bindAmount at h
  split at h
  · obtain rfl := Except.error.inj h
    rfl
  · split at h
    · obtain rfl := Except.error.inj h
      rfl
    · obtain rfl := Except.error.inj h
      rfl
    · simp at h

theorem isOfNode_of_bindNumber (h : s.bindNumber t = .error m) : m.isOfNode = true := by
  unfold bindNumber at h
  split at h
  · obtain rfl := Except.error.inj h
    rfl
  · split at h
    · simp [Mismatch.isOfNode, kind_of_bindAmount h, RefusalKind.isOfNode]
    · obtain rfl := Except.error.inj h
      simp [Mismatch.isOfNode, kind_unitMismatch, RefusalKind.isOfNode]

theorem isOfNode_of_bindWord (h : s.bindWord t = .error m) : m.isOfNode = true := by
  unfold bindWord at h
  split at h
  · obtain rfl := Except.error.inj h
    rfl
  · split at h
    · simp at h
    · split at h
      · simp at h
      · obtain rfl := Except.error.inj h
        rfl

theorem isOfNode_of_bind (h : s.bind t = .error m) : m.isOfNode = true := by
  unfold bind at h
  split at h
  · split at h
    · simp at h
    · obtain rfl := Except.error.inj h
      rfl
  · exact isOfNode_of_bindNumber h
  · exact isOfNode_of_bindWord h

end Slot

namespace Line

variable {l : Line} {p q : Progress} {s : Slot} {slot pos : Nat} {m : Mismatch} {miss : Miss}

@[simp] theorem missAt_mismatch : (l.missAt pos m).mismatch = m := by
  unfold missAt
  split <;> rfl

@[simp] theorem missAt_index : (l.missAt pos m).index = pos := by
  unfold missAt
  split <;> rfl

theorem missAt_span {t : Token} (ht : l.tokens[pos]? = some t) :
    (l.missAt pos m).span = some t.span := by
  simp only [missAt, ht]

theorem bindHead_eq_error (h : l.bindHead s slot p = .error miss) :
    ∃ m, miss = l.missAt p.pos m ∧ m.isOfNode = true := by
  unfold bindHead at h
  split at h
  · exact ⟨_, (Except.error.inj h).symm, rfl⟩
  · split at h
    · simp at h
    · rename_i m hm
      exact ⟨m, (Except.error.inj h).symm, Slot.isOfNode_of_bind hm⟩

end Line

def Walked.progress : Walked → Progress
  | done p => p
  | failed _ p => p

namespace Node

/-- The walk of the nodes from `p` ends in `w`. A failure of an alternative is passed over where it
is soft and lies no further than `p`. -/
inductive Walks (l : Line) : Nat → Progress → List Node → Walked → Prop
  | nil {slot : Nat} {p : Progress} : Walks l slot p [] (.done p)
  | bound {slot : Nat} {p q r : Progress} {s : Slot} {cs os ns : List Node} {w : Walked} :
      l.bindHead s slot p = .ok q → Walks l (slot + 1) q cs (.done r) →
      Walks l (slot + (mk s cs os).size) r ns w → Walks l slot p (mk s cs os :: ns) w
  | childFailed {slot : Nat} {p q r : Progress} {s : Slot} {cs os ns : List Node} {miss : Miss} :
      l.bindHead s slot p = .ok q → Walks l (slot + 1) q cs (.failed miss r) →
      Walks l slot p (mk s cs os :: ns) (.failed miss r)
  | refused {slot : Nat} {p : Progress} {s : Slot} {cs os ns : List Node} {miss : Miss} :
      l.bindHead s slot p = .error miss →
      miss.mismatch.isSoft = false ∨ os = [] ∧ s.required = true →
      Walks l slot p (mk s cs os :: ns) (.failed miss p)
  | skipped {slot : Nat} {p : Progress} {s : Slot} {cs ns : List Node} {miss : Miss}
      {w : Walked} :
      l.bindHead s slot p = .error miss → miss.mismatch.isSoft = true → s.required = false →
      Walks l (slot + (mk s cs []).size) p ns w → Walks l slot p (mk s cs [] :: ns) w
  | otherwise {slot : Nat} {p q : Progress} {s : Slot} {cs os ns : List Node} {miss : Miss}
      {w : Walked} :
      l.bindHead s slot p = .error miss → miss.mismatch.isSoft = true → os ≠ [] →
      Walks l (slot + 1 + slotCount cs) p os (.done q) →
      Walks l (slot + (mk s cs os).size) q ns w → Walks l slot p (mk s cs os :: ns) w
  | branchFailed {slot : Nat} {p q : Progress} {s : Slot} {cs os ns : List Node}
      {miss inner : Miss} :
      l.bindHead s slot p = .error miss → miss.mismatch.isSoft = true → os ≠ [] →
      Walks l (slot + 1 + slotCount cs) p os (.failed inner q) →
      ¬ (inner.mismatch.isSoft = true ∧ inner.index ≤ p.pos) →
      Walks l slot p (mk s cs os :: ns) (.failed inner q)
  | passed {slot : Nat} {p q : Progress} {s : Slot} {cs os ns : List Node} {miss inner : Miss}
      {w : Walked} :
      l.bindHead s slot p = .error miss → miss.mismatch.isSoft = true → os ≠ [] →
      Walks l (slot + 1 + slotCount cs) p os (.failed inner q) →
      inner.mismatch.isSoft = true → inner.index ≤ p.pos → s.required = false →
      Walks l (slot + (mk s cs os).size) p ns w → Walks l slot p (mk s cs os :: ns) w
  | noneLeft {slot : Nat} {p q : Progress} {s : Slot} {cs os ns : List Node} {miss inner : Miss} :
      l.bindHead s slot p = .error miss → miss.mismatch.isSoft = true → os ≠ [] →
      Walks l (slot + 1 + slotCount cs) p os (.failed inner q) →
      inner.mismatch.isSoft = true → inner.index ≤ p.pos → s.required = true →
      Walks l slot p (mk s cs os :: ns) (.failed (l.noAlternative s p) p)

variable {l : Line} {slot : Nat} {p : Progress} {ns : List Node} {w : Walked}

mutual

theorem walks_walk (l : Line) (slot : Nat) (p : Progress) (ns : List Node) (w : Walked) :
    (n : Node) → (∀ q, n.walk l slot p = .done q → Walks l (slot + n.size) q ns w) →
      (∀ miss q, n.walk l slot p = .failed miss q → w = .failed miss q) →
      Walks l slot p (n :: ns) w
  | mk s cs os, hdone, hfail => by
    rw [walk] at hdone hfail
    cases hhead : l.bindHead s slot p with
    | ok q =>
      have hcs := walks_walkAll l (slot + 1) q cs
      simp only [hhead] at hdone hfail
      cases hw : walkAll l (slot + 1) q cs with
      | done r => exact .bound hhead (hw ▸ hcs) (hdone r hw)
      | failed miss r =>
        obtain rfl := hfail miss r hw
        exact .childFailed hhead (hw ▸ hcs)
    | error miss =>
      simp only [hhead] at hdone hfail
      cases hsoft : miss.mismatch.isSoft with
      | false =>
        obtain rfl := hfail miss p (by simp [hsoft])
        exact .refused hhead (.inl hsoft)
      | true =>
        simp only [hsoft, Bool.not_true, Bool.false_eq_true, if_false] at hdone hfail
        by_cases hos : os = []
        · subst hos
          cases hr : s.required with
          | true =>
            obtain rfl := hfail miss p (by simp [hr])
            exact .refused hhead (.inr ⟨rfl, hr⟩)
          | false => exact .skipped hhead hsoft hr (hdone p (by simp [hr]))
        · have hbranch := walks_walkAll l (slot + 1 + slotCount cs) p os
          have hne : os.isEmpty = false := by simpa using hos
          simp only [hne, Bool.false_eq_true, if_false] at hdone hfail
          cases hw : walkAll l (slot + 1 + slotCount cs) p os with
          | done q => exact .otherwise hhead hsoft hos (hw ▸ hbranch) (hdone q (by simp [hw]))
          | failed inner q =>
            simp only [hw, Bool.and_eq_true, decide_eq_true_eq] at hdone hfail
            by_cases hpass : inner.mismatch.isSoft = true ∧ inner.index ≤ p.pos
            · simp only [hpass, and_self, if_true] at hdone hfail
              cases hr : s.required with
              | true =>
                obtain rfl := hfail (l.noAlternative s p) p (by simp [hr])
                exact .noneLeft hhead hsoft hos (hw ▸ hbranch) hpass.1 hpass.2 hr
              | false =>
                exact .passed hhead hsoft hos (hw ▸ hbranch) hpass.1 hpass.2 hr
                  (hdone p (by simp [hr]))
            · obtain rfl := hfail inner q (by simp [hpass])
              exact .branchFailed hhead hsoft hos (hw ▸ hbranch) hpass

theorem walks_walkAll (l : Line) (slot : Nat) (p : Progress) : (ns : List Node) →
    Walks l slot p ns (walkAll l slot p ns)
  | [] => .nil
  | n :: ns => by
    refine walks_walk l slot p ns _ n (fun q hq => ?_) (fun miss q hq => ?_)
    · rw [walkAll, hq]
      exact walks_walkAll l _ q ns
    · rw [walkAll, hq]

end

theorem Walks.walkAll_eq (h : Walks l slot p ns w) : walkAll l slot p ns = w := by
  induction h with
  | nil => rfl
  | bound hb _ _ ihc ihn => simp [walkAll, walk, hb, ihc, ihn]
  | childFailed hb _ ihc => simp [walkAll, walk, hb, ihc]
  | refused hb hr =>
    rcases hr with hr | ⟨rfl, hr⟩
    · simp [walkAll, walk, hb, hr]
    · simp [walkAll, walk, hb, hr]
  | skipped hb hs hr _ ihn => simp [walkAll, walk, hb, hs, hr, ihn]
  | otherwise hb hs ho _ _ iho ihn => simp [walkAll, walk, hb, hs, ho, iho, ihn]
  | branchFailed hb hs ho _ hf iho =>
    simp only [walkAll, walk, hb, hs, iho, Bool.and_eq_true, decide_eq_true_eq, if_neg hf]
    simp [ho]
  | passed hb hs ho _ hi hx hr _ iho ihn =>
    simp [walkAll, walk, hb, hs, ho, iho, hi, hx, hr, ihn]
  | noneLeft hb hs ho _ hi hx hr iho => simp [walkAll, walk, hb, hs, ho, iho, hi, hx, hr]

theorem walks_iff : Walks l slot p ns w ↔ walkAll l slot p ns = w := by
  constructor
  · exact Walks.walkAll_eq
  · rintro rfl
    exact walks_walkAll l slot p ns

theorem walkAll_singleton (n : Node) : walkAll l slot p [n] = n.walk l slot p := by
  rw [walkAll]
  cases n.walk l slot p <;> simp [walkAll]

theorem walks_singleton (l : Line) (slot : Nat) (p : Progress) (n : Node) :
    Walks l slot p [n] (n.walk l slot p) :=
  walks_iff.mpr n.walkAll_singleton

end Node

end TasScript
