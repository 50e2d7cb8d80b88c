import Mathlib.Data.List.Chain
import TasScript.Catalogue.Basic
import TasScript.Proofs.Stopping

/-! Where results point. On a line whose tokens stand in order, a success covers the line from the
name to the last token, and a refusal points into it: to the first token that was not read, or
behind the last one. -/

namespace TasScript

/-- On the line of `outer` and not out of its columns. -/
structure Span.Within (outer σ : Span) : Prop where
  line : σ.line = outer.line
  start : outer.startCol ≤ σ.startCol
  width : σ.startCol ≤ σ.endCol
  stop : σ.endCol ≤ outer.endCol

instance (outer σ : Span) : Decidable (outer.Within σ) :=
  decidable_of_iff (σ.line = outer.line ∧ outer.startCol ≤ σ.startCol ∧ σ.startCol ≤ σ.endCol ∧
      σ.endCol ≤ outer.endCol)
    ⟨fun ⟨hline, hstart, hwidth, hstop⟩ => ⟨hline, hstart, hwidth, hstop⟩,
      fun h => ⟨h.line, h.start, h.width, h.stop⟩⟩

def lastToken (name : Token) (tokens : List Token) : Token := tokens.getLast?.getD name

def wholeSpan (name : Token) (tokens : List Token) : Span :=
  name.span.covering (lastToken name tokens).span

/-- The tokens stand on the line of the name, in order behind it and behind one another. -/
structure LaidOut (name : Token) (tokens : List Token) : Prop where
  line : ∀ t ∈ tokens, t.span.line = name.span.line
  width : ∀ t ∈ name :: tokens, t.span.startCol ≤ t.span.endCol
  order : (name :: tokens).IsChain fun t u => t.span.endCol ≤ u.span.startCol

theorem lastToken_cons (name t : Token) (tokens : List Token) :
    lastToken name (t :: tokens) = lastToken t tokens := by
  rw [lastToken, lastToken, List.getLast?_cons, Option.getD_some]

theorem lastToken_eq {name last : Token} {tokens : List Token} (h : tokens.getLast? = some last) :
    lastToken name tokens = last := by
  rw [lastToken, h, Option.getD_some]

theorem lastToken_mem (name : Token) (tokens : List Token) :
    lastToken name tokens ∈ name :: tokens := by
  cases h : tokens.getLast? with
  | none => simp [lastToken, h]
  | some last =>
    rw [lastToken_eq h]
    exact List.mem_cons_of_mem _ (List.mem_of_getLast? h)

namespace LaidOut

variable {name t : Token} {tokens : List Token}

theorem tail (h : LaidOut name (t :: tokens)) : LaidOut t tokens where
  line := by
    intro u hu
    rw [h.line u (List.mem_cons_of_mem _ hu), h.line t List.mem_cons_self]
  width := fun u hu => h.width u (List.mem_cons_of_mem _ hu)
  order := h.order.tail

theorem columns (h : LaidOut name tokens) (ht : t ∈ name :: tokens) :
    name.span.startCol ≤ t.span.startCol ∧
      t.span.endCol ≤ (lastToken name tokens).span.endCol := by
  induction tokens generalizing name t with
  | nil =>
    obtain rfl := List.mem_singleton.mp ht
    exact ⟨Nat.le_refl _, Nat.le_refl _⟩
  | cons u tokens ih =>
    have hname := h.width name List.mem_cons_self
    have hnext : name.span.endCol ≤ u.span.startCol := (List.isChain_cons_cons.mp h.order).1
    rw [lastToken_cons]
    rcases List.mem_cons.mp ht with rfl | ht
    · have hu := h.width u (by simp)
      have hlast := (ih h.tail List.mem_cons_self).2
      exact ⟨Nat.le_refl _, by omega⟩
    · have hrest := ih h.tail ht
      exact ⟨by omega, hrest.2⟩

theorem line_of_mem (h : LaidOut name tokens) (ht : t ∈ name :: tokens) :
    t.span.line = name.span.line := by
  rcases List.mem_cons.mp ht with rfl | ht
  · rfl
  · exact h.line t ht

theorem within_token (h : LaidOut name tokens) (ht : t ∈ name :: tokens) :
    (wholeSpan name tokens).Within t.span :=
  ⟨h.line_of_mem ht, (h.columns ht).1, h.width t ht, (h.columns ht).2⟩

theorem within_rest (h : LaidOut name tokens) (ht : t ∈ name :: tokens) :
    (wholeSpan name tokens).Within (t.span.covering (lastToken name tokens).span) :=
  ⟨h.line_of_mem ht, (h.columns ht).1, Nat.le_trans (h.width t ht) (h.columns ht).2,
    Nat.le_refl _⟩

theorem within_end (h : LaidOut name tokens) :
    (wholeSpan name tokens).Within (lastToken name tokens).span.after := by
  have hmem := lastToken_mem name tokens
  have hwidth := h.width _ hmem
  have hcolumns := h.columns hmem
  exact ⟨h.line_of_mem hmem, Nat.le_trans hcolumns.1 hwidth, Nat.le_refl _, Nat.le_refl _⟩

end LaidOut

namespace Schema

variable {s : Schema} {name : Token} {tokens : List Token}

/-- When it was refused with `r`, the walk had read the first `k` tokens; with no tokens there is no
walk. -/
def HadRead (s : Schema) (l : Line) (r : Refusal) (k : Nat) : Prop :=
  l.tokens = [] ∧ k = 0 ∨ ∃ miss q, s.Stops l miss q ∧ r = miss.refusal ∧ k = q.pos

/-- The first token that was not read, with all behind it where these are too much; where all were
read, the empty range behind the last one. -/
def pointsTo (name : Token) (tokens : List Token) (kind : RefusalKind) (k : Nat) : Span :=
  match tokens[k]? with
  | some t =>
    if kind = .trailingArguments then t.span.covering (lastToken name tokens).span else t.span
  | none => (lastToken name tokens).span.after

end Schema

theorem LaidOut.within_pointsTo {name : Token} {tokens : List Token} (h : LaidOut name tokens)
    (kind : RefusalKind) (k : Nat) :
    (wholeSpan name tokens).Within (Schema.pointsTo name tokens kind k) := by
  unfold Schema.pointsTo
  split
  · rename_i t ht
    have hmem : t ∈ name :: tokens := List.mem_cons_of_mem _ (List.mem_of_getElem? ht)
    split
    · exact h.within_rest hmem
    · exact h.within_token hmem
  · exact h.within_end

namespace Schema

variable {s : Schema} {name : Token} {tokens : List Token} {miss : Miss} {q : Progress}

theorem Stops.pos_le_length {l : Line} (h : s.Stops l miss q) : q.pos ≤ l.tokens.length := by
  obtain ⟨g, hg⟩ := h.reads
  exact hg.pos_le_length (Nat.zero_le _)

theorem Stops.span_pointsTo (h : s.Stops (s.line tokens (some name)) miss q) (hne : tokens ≠ []) :
    miss.span = some (pointsTo name tokens miss.mismatch.kind q.pos) := by
  obtain ⟨last, hlast⟩ := Option.isSome_iff_exists.mp (List.getLast?_isSome.mpr hne)
  unfold pointsTo
  cases ht : tokens[q.pos]? with
  | some t =>
    rw [lastToken_eq hlast]
    exact h.span_of_getElem? ht hlast
  | none =>
    obtain ⟨-, hspan⟩ := h.span_of_length_le (List.getElem?_eq_none_iff.mp ht)
    rw [hspan, lastToken_eq hlast]
    simp only [Line.endSpan?, line, hlast]

theorem Stops.kind_ne_off {l : Line} (h : s.Stops l miss q) :
    miss.mismatch.kind ≠ .offMustBeAlone := by
  rcases h.located with ⟨m, rfl, -, hk⟩ | ⟨t, ts, -, rfl⟩
  · rwa [Line.missAt_mismatch]
  · simp [Mismatch.kind]

/-- Every result has a position on its line. A success covers it all; a refusal points to the first
`off`, if that is what was wrong, and else to the first token that was not read. -/
theorem position_of_result (s : Schema) (name : Token) (tokens : List Token)
    (h : LaidOut name tokens) :
    let m := s.matchTokens tokens (some name)
    (m.succeeded = true → m.span = some (wholeSpan name tokens)) ∧
      ∀ r, m.refusal? = some r → ∃ σ, m.span = some σ ∧ r.span = some σ ∧
        (wholeSpan name tokens).Within σ ∧
        (r.kind = .offMustBeAlone → ∃ t, (offTokens tokens).head? = some t ∧ σ = t.span) ∧
        (r.kind ≠ .offMustBeAlone → ∃ k ≤ tokens.length,
          s.HadRead (s.line tokens (some name)) r k ∧ σ = pointsTo name tokens r.kind k) := by
  intro m
  refine ⟨span_of_succeeded, fun r hr => ?_⟩
  obtain ⟨hspan, hcases⟩ := refusal_cases hr
  rw [hspan]
  rcases hcases with ⟨rfl, hk, hr⟩ | ⟨t, -, ht, hk, hr⟩ | ⟨hne, -, miss, q, hstop, rfl⟩
  · refine ⟨_, hr, hr, h.within_end, fun hoff => ?_, fun _ => ?_⟩
    · simp [hk] at hoff
    · exact ⟨0, Nat.le_refl _, .inl ⟨rfl, rfl⟩, rfl⟩
  · have hmem : t ∈ tokens := (List.mem_filter.mp (List.mem_of_head? ht)).1
    refine ⟨_, hr, hr, h.within_token (List.mem_cons_of_mem _ hmem), fun _ => ⟨t, ht, rfl⟩, ?_⟩
    exact fun hoff => absurd hk hoff
  · have hpoints := hstop.span_pointsTo hne
    refine ⟨_, hpoints, hpoints, h.within_pointsTo _ _, fun hoff => ?_, fun _ => ?_⟩
    · exact absurd hoff hstop.kind_ne_off
    · exact ⟨q.pos, hstop.pos_le_length, .inr ⟨miss, q, hstop, rfl, rfl⟩, rfl⟩

/-- A time in parts of ticks is refused where it stands. -/
theorem position_of_result_fraction :
    let name : Token := ⟨.string, "setang", ⟨2, 4, 10⟩⟩
    let tokens : List Token := [⟨.number, "0", ⟨2, 11, 12⟩⟩, ⟨.number, "90", ⟨2, 13, 15⟩⟩,
      ⟨.number, "0.5", ⟨2, 16, 19⟩⟩, ⟨.string, "sine", ⟨2, 20, 24⟩⟩]
    LaidOut name tokens ∧ ∃ r σ,
      (Catalogue.setang.matchTokens tokens (some name)).refusal? = some r ∧
      r.kind = .outOfRange ∧ r.span = some σ ∧ (wholeSpan name tokens).Within σ ∧
      ∃ k, Catalogue.setang.HadRead (Catalogue.setang.line tokens (some name)) r k ∧
        σ = pointsTo name tokens r.kind k := by
  intro name tokens
  have hlaid : LaidOut name tokens := ⟨by decide, by decide, by simp [name, tokens]⟩
  have hrefusal : (Catalogue.setang.matchTokens tokens (some name)).refusal? =
      some ⟨.outOfRange, "<duration> must be a whole number", some ⟨2, 16, 19⟩⟩ := by
    decide +kernel
  obtain ⟨-, hpos⟩ := position_of_result Catalogue.setang name tokens hlaid
  obtain ⟨σ, -, hσ, hwithin, -, hread⟩ := hpos _ hrefusal
  obtain ⟨k, -, hk⟩ := hread (by decide)
  exact ⟨hlaid, _, σ, hrefusal, rfl, hσ, hwithin, k, hk⟩

end Schema

end TasScript
