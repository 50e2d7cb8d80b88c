import TasScript.Proofs.Block

/-! What an optional node passes over. A slot declines a token that is not of its kind; the walk
then goes on with the same token behind the node, or with the alternative of the node. -/

namespace TasScript

/-- The value and the suffix of a number; none where the text starts with no numeral. -/
def Token.amount? (t : Token) : Option (Float × String) :=
  if t.isNumber then splitNumber? t.text else none

namespace Slot

variable {s : Slot} {t : Token} {m : Mismatch}

def Declines (s : Slot) (t : Token) : Prop := ∃ m, s.bind t = .error m ∧ m.isSoft = true

theorem not_declines_of_bind {v : Value} (h : s.bind t = .ok v) : ¬ s.Declines t := by
  rintro ⟨m, hm, -⟩
  simp [h] at hm

theorem declines_keyword {keyword : String} (ht : s.text = some keyword) :
    s.Declines t ↔ t.isKeyword keyword = false := by
  unfold Declines bind
  rw [ht]
  by_cases hk : t.isKeyword keyword = true
  · simp [hk]
  · simp only [if_neg hk]
    exact iff_of_true ⟨_, rfl, rfl⟩ (by simpa using hk)

theorem bind_word (ht : s.text = none) (hk : s.kind = .string) : s.bind t = s.bindWord t := by
  simp only [bind, ht, hk]

theorem bind_number (ht : s.text = none) (hk : s.kind = .number) : s.bind t = s.bindNumber t := by
  simp only [bind, ht, hk]

theorem declines_word (ht : s.text = none) (hk : s.kind = .string) (hc : s.choices = none) :
    s.Declines t ↔ t.isNumber = true := by
  unfold Declines
  rw [bind_word ht hk, bindWord, hc]
  by_cases hn : t.isNumber = true
  · simp only [if_pos hn]
    exact iff_of_true ⟨_, rfl, rfl⟩ hn
  · simp [hn]

theorem declines_choice {choices : List String} (ht : s.text = none) (hk : s.kind = .string)
    (hc : s.choices = some choices) :
    s.Declines t ↔ t.isNumber = true ∨ lower t.text ∉ choices := by
  unfold Declines
  rw [bind_word ht hk, bindWord, hc]
  by_cases hn : t.isNumber = true
  · simp only [if_pos hn]
    exact iff_of_true ⟨_, rfl, rfl⟩ (.inl hn)
  · by_cases hm : lower t.text ∈ choices
    · simp [hn, hm]
    · simp only [if_neg hn, List.contains_eq_mem, decide_eq_true_eq, if_neg hm]
      exact iff_of_true ⟨_, rfl, rfl⟩ (.inr hm)

theorem bindNumber_eq_match (s : Slot) (t : Token) : s.bindNumber t =
    match t.amount? with
    | none => .error (.numberExpected s.label t.text)
    | some (x, suffix) =>
      if s.acceptsUnit suffix then s.bindAmount x else .error (s.unitMismatch suffix) := rfl

/-- A number with a wrong unit, or out of its bounds, is not passed over. -/
theorem declines_number (ht : s.text = none) (hk : s.kind = .number) :
    s.Declines t ↔ t.amount? = none := by
  unfold Declines
  rw [bind_number ht hk, bindNumber_eq_match]
  cases t.amount? with
  | none => exact iff_of_true ⟨_, rfl, rfl⟩ rfl
  | some r =>
    refine iff_of_false ?_ (by simp)
    rintro ⟨m, hm, hsoft⟩
    dsimp only at hm
    split at hm
    · simp [Mismatch.isSoft, kind_of_bindAmount hm] at hsoft
    · obtain rfl := Except.error.inj hm
      simp [Mismatch.isSoft, kind_unitMismatch] at hsoft

end Slot

namespace Line

variable {l : Line} {s : Slot} {slot : Nat} {p : Progress} {miss : Miss}

theorem declines_of_bindHead {t : Token} (h : l.bindHead s slot p = .error miss)
    (hsoft : miss.mismatch.isSoft = true) (ht : l.tokens[p.pos]? = some t) : s.Declines t := by
  unfold bindHead at h
  rw [ht] at h
  cases hb : s.bind t with
  | ok v => simp [hb] at h
  | error m =>
    simp only [hb, Except.error.injEq] at h
    subst h
    exact ⟨m, hb, by simpa using hsoft⟩

end Line

namespace Node

variable {l : Line} {slot : Nat} {p q : Progress} {s : Slot} {cs os ns : List Node}

theorem Walks.of_nil (h : Walks l slot p [] (.done q)) : q = p := by
  cases h
  rfl

/-- The leaf binds the next token, or declines it and is passed over. -/
theorem Walks.of_leaf (h : Walks l slot p (leaf s :: ns) (.done q)) :
    (∃ t v, l.tokens[p.pos]? = some t ∧ s.bind t = .ok v ∧
        Walks l (slot + 1) (p.bind slot v) ns (.done q)) ∨
      s.required = false ∧ (∀ t, l.tokens[p.pos]? = some t → s.Declines t) ∧
        Walks l (slot + 1) p ns (.done q) := by
  cases h with
  | bound hb hc hn =>
    obtain ⟨t, v, ht, hv, rfl⟩ := Line.bindHead_eq_ok hb
    obtain rfl := hc.of_nil
    exact .inl ⟨t, v, ht, hv, hn⟩
  | skipped hb hsoft hr hn =>
    exact .inr ⟨hr, fun t => Line.declines_of_bindHead hb hsoft, hn⟩
  | otherwise _ _ ho => exact absurd rfl ho
  | passed _ _ ho => exact absurd rfl ho

theorem Walks.of_needed (hr : s.required = true)
    (h : Walks l slot p (leaf s :: ns) (.done q)) :
    ∃ t v, l.tokens[p.pos]? = some t ∧ s.bind t = .ok v ∧
      Walks l (slot + 1) (p.bind slot v) ns (.done q) := by
  rcases h.of_leaf with hbound | ⟨hnot, -⟩
  · exact hbound
  · simp [hr] at hnot

/-- A needed leaf behind which the walk came to nothing has declined its token. -/
theorem Walks.declines_of_failed {miss : Miss} (hr : s.required = true)
    (h : Walks l slot p (leaf s :: ns) (.failed miss q)) (hsoft : miss.mismatch.isSoft = true)
    (hi : miss.index ≤ p.pos) {t : Token} (ht : l.tokens[p.pos]? = some t) : s.Declines t := by
  cases h with
  | bound hb hc hn =>
    obtain rfl := hc.of_nil
    have hpos := Line.pos_of_bindHead hb
    have hle : _ ≤ q.pos := hn.pos_le
    rw [hn.index_eq] at hi
    omega
  | childFailed _ hc => cases hc
  | refused hb => exact Line.declines_of_bindHead hb hsoft ht
  | skipped _ _ hnot => simp [hr] at hnot
  | otherwise _ _ ho => exact absurd rfl ho
  | branchFailed _ _ ho => exact absurd rfl ho
  | passed _ _ ho => exact absurd rfl ho
  | noneLeft _ _ ho => exact absurd rfl ho

end Node

end TasScript
