import TasScript.Proofs.Account

/-! Where a match stops. Behind every refusal of the grammar stands one failure, with the progress
at which the walk was when it failed: it has read the tokens so far, and no others. -/

namespace TasScript

open Node

namespace Flags

variable {l : Line} {arbitrary : Bool} {candidates : List (Node × Nat)} {f : Flags} {t : Token}
  {miss : Miss} {q : Progress}

theorem Halts.located (h : Halts l arbitrary candidates f t miss q) :
    ∃ m, miss = l.missAt q.pos m ∧ m.kind ≠ .trailingArguments ∧ m.kind ≠ .offMustBeAlone := by
  cases h with
  | unknown => exact ⟨_, rfl, by simp [Mismatch.kind], by simp [Mismatch.kind]⟩
  | repeated => exact ⟨_, rfl, by simp [Mismatch.kind], by simp [Mismatch.kind]⟩
  | conflicting => exact ⟨_, rfl, by simp [Mismatch.kind], by simp [Mismatch.kind]⟩
  | @failed c miss q _ _ hq =>
    obtain ⟨m, hm, hk⟩ := (c.1.walks_singleton l c.2 f.progress).located hq
    exact ⟨m, hm, m.kind_ne_of_isOfNode hk rfl, m.kind_ne_of_isOfNode hk rfl⟩

theorem Halts.reads (h : Halts l arbitrary candidates f t miss q) :
    ∃ g, l.Reads f.progress g q := by
  cases h with
  | unknown => exact ⟨[], .refl l _⟩
  | repeated => exact ⟨[], .refl l _⟩
  | conflicting => exact ⟨[], .refl l _⟩
  | @failed c miss q _ _ hq =>
    obtain ⟨g, hg, -⟩ := (c.1.walks_singleton l c.2 f.progress).reading
    rw [hq] at hg
    exact ⟨g, hg⟩

end Flags

theorem spanOf?_drop {tokens : List Token} {k : Nat} {t last : Token} (ht : tokens[k]? = some t)
    (hl : tokens.getLast? = some last) :
    spanOf? (tokens.drop k) = some (t.span.covering last.span) := by
  have hlt := (List.getElem?_eq_some_iff.mp ht).1
  have hnot : ¬ tokens.length ≤ k := by omega
  simp [spanOf?, List.head?_drop, List.getLast?_drop, ht, hl, hnot]

/-- What the writer of a line is told about a failure. -/
def Miss.refusal (m : Miss) : Refusal := ⟨m.mismatch.kind, m.mismatch.message, m.span⟩

namespace Schema

variable {s : Schema} {l : Line} {f : Flags} {miss : Miss} {q : Progress} {tokens : List Token}
  {name : Option Token}

theorem Gathers.reads (h : s.Gathers l f) : ∃ g, l.Reads (.start s.slotCount) g f.progress := by
  obtain ⟨g, hg⟩ := h.follows
  exact ⟨g, hg.reads⟩

/-- The grammar is walked over the tokens and fails; the progress is the one at which it does. -/
inductive Stops (s : Schema) (l : Line) : Miss → Progress → Prop
  | node {miss : Miss} {q : Progress} : s.fixedOrder = true →
      walkAll l 0 (.start s.slotCount) s.arguments = .failed miss q → Stops s l miss q
  | trailing {t : Token} {ts : List Token} {q : Progress} : s.fixedOrder = true →
      walkAll l 0 (.start s.slotCount) s.arguments = .done q → l.tokens.drop q.pos = t :: ts →
      s.allowArbitraryArguments = false →
      Stops s l ⟨.trailing t.text s.name, q.pos, spanOf? (t :: ts)⟩ q
  | flag {f : Flags} {t : Token} {miss : Miss} {q : Progress} : s.fixedOrder = false →
      s.Gathers l f → l.tokens[f.progress.pos]? = some t →
      Flags.Halts l s.allowArbitraryArguments s.flags f t miss q → Stops s l miss q
  | missing {f : Flags} : s.fixedOrder = false → s.Gathers l f →
      l.tokens.length ≤ f.progress.pos → Flags.missing s.flags f ≠ [] →
      Stops s l (l.missAt f.progress.pos (.flagsMissing (Flags.missing s.flags f))) f.progress

theorem walkOrdered_eq_error_iff (hs : s.fixedOrder = true) :
    s.walkOrdered l = .error miss ↔ ∃ q, s.Stops l miss q := by
  unfold walkOrdered
  constructor
  · intro h
    split at h
    · rename_i miss' q hq
      obtain rfl := Except.error.inj h
      exact ⟨q, .node hs hq⟩
    · rename_i p hp
      split at h
      · simp at h
      · rename_i t ts hrest
        split at h
        · simp at h
        · rename_i ha
          obtain rfl := Except.error.inj h
          exact ⟨p, .trailing hs hp hrest (by simpa using ha)⟩
  · rintro ⟨q, h⟩
    cases h with
    | node _ hq => simp only [hq]
    | trailing _ hp hrest ha => simp only [hp, hrest, ha, Bool.false_eq_true, if_false]
    | flag hf => simp [hs] at hf
    | missing hf => simp [hs] at hf

theorem walkFlags_eq_error_iff (hs : s.fixedOrder = false) :
    s.walkFlags l = .error miss ↔ ∃ q, s.Stops l miss q := by
  have hn : l.tokens.length ≤ s.flagStart.progress.pos + l.tokens.length := Nat.le_add_left _ _
  rw [walkFlags_eq]
  constructor
  · intro h
    split at h
    · rename_i miss' hmiss
      obtain rfl := Except.error.inj h
      obtain ⟨f, t, q, hf, ht, hq⟩ := (Flags.gather_eq_error_iff hn).mp hmiss
      exact ⟨q, .flag hs hf ht hq⟩
    · rename_i f hf
      obtain ⟨hr, hend⟩ := (Flags.gather_eq_ok_iff hn).mp hf
      split at h
      · simp at h
      · rename_i hlabels
        obtain rfl := Except.error.inj h
        exact ⟨f.progress, .missing hs hr hend hlabels⟩
  · rintro ⟨q, h⟩
    cases h with
    | node ho => simp [hs] at ho
    | trailing ho => simp [hs] at ho
    | flag _ hf ht hq => rw [(Flags.gather_eq_error_iff hn).mpr ⟨_, _, _, hf, ht, hq⟩]
    | @missing f _ hr hend hlabels =>
      rw [(Flags.gather_eq_ok_iff hn).mpr ⟨hr, hend⟩]
      dsimp only
      split
      · rename_i hnil
        exact absurd hnil hlabels
      · rfl

theorem walk_eq_error_iff : s.walk l = .error miss ↔ ∃ q, s.Stops l miss q := by
  unfold walk
  split
  · rename_i hs
    exact walkOrdered_eq_error_iff hs
  · rename_i hs
    exact walkFlags_eq_error_iff (by simpa using hs)

namespace Stops

/-- What was read until the failure are the tokens before it, bound or kept one by one. -/
theorem reads (h : s.Stops l miss q) : ∃ g, l.Reads (.start s.slotCount) g q := by
  cases h with
  | node _ hq =>
    obtain ⟨g, hg, -⟩ := (walks_iff.mpr hq).reading
    exact ⟨g, hg⟩
  | trailing _ hq =>
    obtain ⟨g, hg, -⟩ := (walks_iff.mpr hq).reading
    exact ⟨g, hg⟩
  | flag _ hf _ hq =>
    obtain ⟨g, hg⟩ := hf.reads
    obtain ⟨h, hh⟩ := hq.reads
    exact ⟨g ++ h, hg.trans hh⟩
  | missing _ hf => exact hf.reads

/-- A failure lies at the first token that was not read; only what is too much reaches further. -/
theorem located (h : s.Stops l miss q) :
    (∃ m, miss = l.missAt q.pos m ∧ m.kind ≠ .trailingArguments ∧ m.kind ≠ .offMustBeAlone) ∨
      ∃ t ts, l.tokens.drop q.pos = t :: ts ∧
        miss = ⟨.trailing t.text s.name, q.pos, spanOf? (t :: ts)⟩ := by
  cases h with
  | node _ hq =>
    obtain ⟨m, hm, hk⟩ := (walks_iff.mpr hq).located rfl
    exact .inl ⟨m, hm, m.kind_ne_of_isOfNode hk rfl, m.kind_ne_of_isOfNode hk rfl⟩
  | trailing _ _ hrest => exact .inr ⟨_, _, hrest, rfl⟩
  | flag _ _ _ hq =>
    exact .inl hq.located
  | missing => exact .inl ⟨_, rfl, by simp [Mismatch.kind], by simp [Mismatch.kind]⟩

theorem span_of_getElem? (h : s.Stops l miss q) {t last : Token} (ht : l.tokens[q.pos]? = some t)
    (hl : l.tokens.getLast? = some last) :
    miss.span = some (if miss.mismatch.kind = .trailingArguments then t.span.covering last.span
      else t.span) := by
  rcases h.located with ⟨m, rfl, hk, -⟩ | ⟨u, us, hrest, rfl⟩
  · rw [Line.missAt_mismatch, if_neg hk]
    exact Line.missAt_span ht
  · have hkind : (Mismatch.trailing u.text s.name).kind = .trailingArguments := rfl
    rw [if_pos hkind, ← hrest]
    exact spanOf?_drop ht hl

theorem span_of_length_le (h : s.Stops l miss q) (hend : l.tokens.length ≤ q.pos) :
    miss.mismatch.kind ≠ .trailingArguments ∧ miss.span = l.endSpan? := by
  rcases h.located with ⟨m, rfl, hk, -⟩ | ⟨u, us, hrest, -⟩
  · rw [Line.missAt_mismatch]
    refine ⟨hk, ?_⟩
    simp only [Line.missAt, List.getElem?_eq_none hend]
  · simp [List.drop_eq_nil_of_le hend] at hrest

theorem index_eq (h : s.Stops l miss q) : miss.index = q.pos := by
  rcases h.located with ⟨m, rfl, -⟩ | ⟨t, ts, -, rfl⟩
  · exact Line.missAt_index
  · rfl

end Stops

theorem refused_of_stops (hne : tokens ≠ []) (hoff : s.OffFree tokens)
    (h : s.Stops (s.line tokens name) miss q) :
    s.matchTokens tokens name = ⟨s.name, .refused miss.refusal, miss.span, some s⟩ :=
  matchTokens_of_judge_error
    (judge_of_walk_error hne hoff.offTokens (walk_eq_error_iff.mpr ⟨q, h⟩))

/-- Why a match was refused: there were no tokens, or the tool was turned off and told more, or its
grammar stopped. -/
theorem refusal_cases {r : Refusal} (h : (s.matchTokens tokens name).refusal? = some r) :
    (s.matchTokens tokens name).span = r.span ∧
      (tokens = [] ∧ r.kind = .missingArguments ∧ r.span = (s.line tokens name).endSpan? ∨
        (∃ t, s.hasOff = true ∧ (offTokens tokens).head? = some t ∧ r.kind = .offMustBeAlone ∧
          r.span = some t.span) ∨
        tokens ≠ [] ∧ s.OffFree tokens ∧
          ∃ miss q, s.Stops (s.line tokens name) miss q ∧ r = miss.refusal) := by
  cases hj : s.judge (s.line tokens name) with
  | ok v =>
    rw [matchTokens_of_judge hj] at h
    rcases judge_cases hj with ⟨-, -, rfl⟩ | ⟨-, -, rfl⟩ | ⟨-, -, values, extra, -, rfl⟩ <;>
      simp [Match.refusal?] at h
  | error e =>
    obtain ⟨m, span⟩ := e
    rw [matchTokens_of_judge_error hj] at h ⊢
    obtain rfl := Option.some.inj h
    refine ⟨rfl, ?_⟩
    rcases judge_error_cases hj with
      ⟨hnil, rfl, rfl⟩ | ⟨t, hoff, ht, rfl, rfl⟩ | ⟨hne, hoff, miss, hw, rfl, rfl⟩
    · exact .inl ⟨hnil, rfl, rfl⟩
    · exact .inr (.inl ⟨t, hoff, ht, rfl, rfl⟩)
    · obtain ⟨q, hq⟩ := walk_eq_error_iff.mp hw
      exact .inr (.inr ⟨hne, offFree_of_offTokens hoff, miss, q, hq, rfl⟩)

theorem refusal?_eq_some_iff {r : Refusal} (hne : tokens ≠ []) (hoff : s.OffFree tokens) :
    (s.matchTokens tokens name).refusal? = some r ↔
      ∃ miss q, s.Stops (s.line tokens name) miss q ∧ r = miss.refusal := by
  constructor
  · intro h
    rcases (refusal_cases h).2 with ⟨hnil, -⟩ | ⟨t, hs, ht, -⟩ | ⟨-, -, miss, q, hstop, hr⟩
    · exact absurd hnil hne
    · simp [hoff.offTokens hs] at ht
    · exact ⟨miss, q, hstop, hr⟩
  · rintro ⟨miss, q, hstop, rfl⟩
    rw [refused_of_stops hne hoff hstop]
    rfl

end Schema

end TasScript
