import TasScript.Invocation.Match

/-! What an accepted match can be: there was nothing to bind, or the tool was turned off, or its
grammar was walked to the end. -/

namespace TasScript

theorem Match.values_of_refused (m : Match) (h : m.succeeded = false) : m.values = [] := by
  cases hv : m.verdict with
  | refused r => simp [values, hv]
  | _ => simp [succeeded, hv] at h

namespace Schema

variable {s : Schema} {l : Line} {tokens : List Token} {name : Option Token}

theorem walk_of_ordered (hs : s.fixedOrder = true) : s.walk l = s.walkOrdered l := if_pos hs

theorem walk_of_flags (hs : s.fixedOrder = false) : s.walk l = s.walkFlags l :=
  if_neg (by simp [hs])

/-- The three ways in which an invocation is accepted. -/
theorem judge_cases {v : Verdict} (h : s.judge l = .ok v) :
    l.tokens = [] ∧ (s.expectsArguments = false ∨ s.allOptional = true) ∧
        v = .bound (List.replicate s.slotCount none) [] ∨
      (∃ t, l.tokens = [t] ∧ t.isKeyword offKeyword = true) ∧ s.hasOff = true ∧ v = .off ∨
      l.tokens ≠ [] ∧ (s.hasOff = true → offTokens l.tokens = []) ∧
        ∃ values extra, s.walk l = .ok (values, extra) ∧ v = .bound values extra := by
  unfold judge at h
  split at h
  · rename_i hempty
    split at h
    · rename_i hopt
      refine .inl ⟨by simpa using hempty, ?_, (Except.ok.inj h).symm⟩
      simpa using hopt
    · simp at h
  · rename_i hempty
    have hne : l.tokens ≠ [] := by simpa using hempty
    split at h
    · rename_i t ht
      split at h
      · rename_i hone
        obtain ⟨u, hu⟩ := List.length_eq_one_iff.mp hone
        by_cases hoff : s.hasOff = true
        · rw [if_pos hoff] at ht
          have hmem := List.mem_of_head? ht
          rw [offTokens, List.mem_filter, hu, List.mem_singleton] at hmem
          obtain ⟨rfl, hk⟩ := hmem
          exact .inr (.inl ⟨⟨t, hu, hk⟩, hoff, (Except.ok.inj h).symm⟩)
        · simp [hoff] at ht
      · simp at h
    · rename_i hnone
      refine .inr (.inr ⟨hne, fun hoff => ?_, ?_⟩)
      · rw [if_pos hoff] at hnone
        exact List.head?_eq_none_iff.mp hnone
      · split at h
        · rename_i values extra hw
          exact ⟨values, extra, hw, (Except.ok.inj h).symm⟩
        · simp at h

theorem matchTokens_tool (s : Schema) (tokens : List Token) (name : Option Token) :
    (s.matchTokens tokens name).tool = s.name := by
  unfold matchTokens
  dsimp only
  split <;> rfl

theorem matchTokens_schema (s : Schema) (tokens : List Token) (name : Option Token) :
    (s.matchTokens tokens name).schema = some s := by
  unfold matchTokens
  dsimp only
  split <;> rfl

theorem matchTokens_of_succeeded (h : (s.matchTokens tokens name).succeeded = true) :
    ∃ v, s.judge (s.line tokens name) = .ok v ∧
      s.matchTokens tokens name = ⟨s.name, v, (s.line tokens name).fullSpan?, some s⟩ := by
  unfold matchTokens at h ⊢
  dsimp only at h ⊢
  split at h
  · rename_i v hj
    exact ⟨v, hj, rfl⟩
  · simp [Match.succeeded] at h

theorem matchTokens_of_judge {v : Verdict} (h : s.judge (s.line tokens name) = .ok v) :
    s.matchTokens tokens name = ⟨s.name, v, (s.line tokens name).fullSpan?, some s⟩ := by
  unfold matchTokens
  dsimp only
  rw [h]

/-- With tokens none of which turns the tool off, the verdict is that of the grammar. -/
theorem judge_eq (hne : l.tokens ≠ []) (hoff : s.hasOff = true → offTokens l.tokens = []) :
    s.judge l = match s.walk l with
      | .ok (values, extra) => .ok (.bound values extra)
      | .error miss => .error (miss.mismatch, miss.span) := by
  have hempty : ¬ l.tokens.isEmpty = true := by simpa using hne
  have hnone : (if s.hasOff then (offTokens l.tokens).head? else none) = none := by
    split
    · rename_i h
      rw [hoff h, List.head?_nil]
    · rfl
  unfold judge
  rw [if_neg hempty]
  split
  · rename_i t ht
    rw [hnone] at ht
    cases ht
  · rfl

theorem judge_of_walk (hne : l.tokens ≠ []) (hoff : s.hasOff = true → offTokens l.tokens = [])
    {values : List (Option Value)} {extra : List Token} (hw : s.walk l = .ok (values, extra)) :
    s.judge l = .ok (.bound values extra) := by
  rw [judge_eq hne hoff, hw]

/-- None of the tokens turns the tool off, if it can be turned off. -/
def OffFree (s : Schema) (tokens : List Token) : Prop :=
  s.hasOff = true → ∀ t ∈ tokens, t.isKeyword offKeyword = false

theorem OffFree.offTokens (h : s.OffFree tokens) (hoff : s.hasOff = true) :
    offTokens tokens = [] := by
  apply List.filter_eq_nil_iff.mpr
  intro t ht
  simp [h hoff t ht]

theorem offFree_of_offTokens (h : s.hasOff = true → Schema.offTokens tokens = []) :
    s.OffFree tokens := by
  intro hoff t ht
  simpa using List.filter_eq_nil_iff.mp (h hoff) t ht

theorem matchTokens_of_judge_error {m : Mismatch} {span : Option Span}
    (h : s.judge (s.line tokens name) = .error (m, span)) :
    s.matchTokens tokens name =
      ⟨s.name, .refused ⟨m.kind, m.message, span⟩, span, some s⟩ := by
  unfold matchTokens
  dsimp only
  rw [h]

/-- The three ways in which an invocation is refused. -/
theorem judge_error_cases {m : Mismatch} {span : Option Span}
    (h : s.judge l = .error (m, span)) :
    l.tokens = [] ∧ m = .argumentsExpected s.name ∧ span = l.endSpan? ∨
      (∃ t, s.hasOff = true ∧ (offTokens l.tokens).head? = some t ∧ m = .offNotAlone ∧
        span = some t.span) ∨
      l.tokens ≠ [] ∧ (s.hasOff = true → offTokens l.tokens = []) ∧
        ∃ miss, s.walk l = .error miss ∧ m = miss.mismatch ∧ span = miss.span := by
  unfold judge at h
  split at h
  · rename_i hempty
    split at h
    · simp at h
    · obtain ⟨rfl, rfl⟩ := Prod.mk.inj (Except.error.inj h)
      exact .inl ⟨by simpa using hempty, rfl, rfl⟩
  · rename_i hempty
    have hne : l.tokens ≠ [] := by simpa using hempty
    split at h
    · rename_i t ht
      split at h
      · simp at h
      · obtain ⟨rfl, rfl⟩ := Prod.mk.inj (Except.error.inj h)
        by_cases hoff : s.hasOff = true
        · rw [if_pos hoff] at ht
          exact .inr (.inl ⟨t, hoff, ht, rfl, rfl⟩)
        · simp [hoff] at ht
    · rename_i hnone
      refine .inr (.inr ⟨hne, fun hoff => ?_, ?_⟩)
      · rw [if_pos hoff] at hnone
        exact List.head?_eq_none_iff.mp hnone
      · split at h
        · simp at h
        · rename_i miss hw
          obtain ⟨rfl, rfl⟩ := Prod.mk.inj (Except.error.inj h)
          exact ⟨miss, hw, rfl, rfl⟩

theorem judge_of_walk_error (hne : l.tokens ≠ [])
    (hoff : s.hasOff = true → offTokens l.tokens = []) {miss : Miss}
    (hw : s.walk l = .error miss) : s.judge l = .error (miss.mismatch, miss.span) := by
  rw [judge_eq hne hoff, hw]

/-- A walk stands behind what is accepted of tokens that do not turn the tool off. -/
theorem walk_of_succeeded (hne : tokens ≠ []) (hoff : s.OffFree tokens)
    (h : (s.matchTokens tokens name).succeeded = true) :
    ∃ values extra, s.walk (s.line tokens name) = .ok (values, extra) ∧
      s.matchTokens tokens name =
        ⟨s.name, .bound values extra, (s.line tokens name).fullSpan?, some s⟩ := by
  cases hw : s.walk (s.line tokens name) with
  | ok bound =>
    exact ⟨bound.1, bound.2, rfl, matchTokens_of_judge (judge_of_walk hne hoff.offTokens hw)⟩
  | error miss =>
    rw [matchTokens_of_judge_error (judge_of_walk_error hne hoff.offTokens hw)] at h
    simp [Match.succeeded] at h

theorem span_of_succeeded {first : Token}
    (h : (s.matchTokens tokens (some first)).succeeded = true) :
    (s.matchTokens tokens (some first)).span =
      some (first.span.covering (tokens.getLast?.getD first).span) := by
  obtain ⟨v, -, hm⟩ := matchTokens_of_succeeded h
  rw [hm]
  rfl

theorem hasOff_of_isOff (h : (s.matchTokens tokens name).isOff = true) : s.hasOff = true := by
  have hok : (s.matchTokens tokens name).succeeded = true := by
    cases hv : (s.matchTokens tokens name).verdict with
    | off => simp [Match.succeeded, hv]
    | _ => simp [Match.isOff, hv] at h
  obtain ⟨v, hj, hm⟩ := matchTokens_of_succeeded hok
  rw [hm] at h
  rcases judge_cases hj with ⟨-, -, rfl⟩ | ⟨-, hoff, -⟩ | ⟨-, -, values, extra, -, rfl⟩
  · simp [Match.isOff] at h
  · exact hoff
  · simp [Match.isOff] at h

theorem walk_of_bound {values : List (Option Value)} {extra : List Token}
    (h : (s.matchTokens tokens name).verdict = .bound values extra) :
    tokens = [] ∧ values = List.replicate s.slotCount none ∧ extra = [] ∨
      tokens ≠ [] ∧ s.walk (s.line tokens name) = .ok (values, extra) := by
  have hok : (s.matchTokens tokens name).succeeded = true := by simp [Match.succeeded, h]
  obtain ⟨v, hj, hm⟩ := matchTokens_of_succeeded hok
  rw [hm] at h
  rcases judge_cases hj with ⟨hnil, -, hv⟩ | ⟨-, -, hv⟩ | ⟨hne, -, values', extra', hw, hv⟩
  · obtain ⟨rfl, rfl⟩ := Verdict.bound.inj (h.symm.trans hv)
    exact .inl ⟨hnil, rfl, rfl⟩
  · simp [hv] at h
  · obtain ⟨rfl, rfl⟩ := Verdict.bound.inj (h.symm.trans hv)
    exact .inr ⟨hne, hw⟩

end Schema

end TasScript
