import TasScript.Catalogue.Basic
import TasScript.Proofs.Stopping

/-! No walk looks ahead. What it does up to a token is settled by the tokens so far, so that a line
which was refused at a token is refused in the same way whatever is written behind this token. -/

namespace TasScript

open Node

namespace Line

variable {l l' : Line} {k pos slot : Nat} {p : Progress} {s : Slot}

/-- Two lines of one tool with the same tokens up to the one at `k`. -/
structure Shares (l l' : Line) (k : Nat) : Prop where
  tool : l'.tool = l.tool
  tokens : ∀ i ≤ k, ∃ t, l.tokens[i]? = some t ∧ l'.tokens[i]? = some t

theorem Shares.getElem? (h : l.Shares l' k) (hp : pos ≤ k) :
    l'.tokens[pos]? = l.tokens[pos]? := by
  obtain ⟨t, ht, ht'⟩ := h.tokens pos hp
  rw [ht, ht']

theorem Shares.missAt (h : l.Shares l' k) (hp : pos ≤ k) (m : Mismatch) :
    l'.missAt pos m = l.missAt pos m := by
  obtain ⟨t, ht, ht'⟩ := h.tokens pos hp
  simp only [Line.missAt, ht, ht']

theorem Shares.bindHead (h : l.Shares l' k) (hp : p.pos ≤ k) :
    l'.bindHead s slot p = l.bindHead s slot p := by
  unfold Line.bindHead
  rw [h.getElem? hp]
  simp only [h.missAt hp]

theorem Shares.noAlternative (h : l.Shares l' k) (hp : p.pos ≤ k) :
    l'.noAlternative s p = l.noAlternative s p := by
  obtain ⟨t, ht, ht'⟩ := h.tokens p.pos hp
  have hlt := (List.getElem?_eq_some_iff.mp ht).1
  have hlt' := (List.getElem?_eq_some_iff.mp ht').1
  have hend : decide (l'.tokens.length ≤ p.pos) = decide (l.tokens.length ≤ p.pos) := by
    rw [decide_eq_false (by omega), decide_eq_false (by omega)]
  rw [Line.noAlternative, hend, h.missAt hp, Line.noAlternative]

end Line

variable {l l' : Line} {k slot : Nat}

/-- A walk that came no further than the shared tokens goes the same way on both lines. -/
theorem Node.Walks.of_shares {p : Progress} {ns : List Node} {w : Walked}
    (hs : l.Shares l' k) (h : Walks l slot p ns w) (hw : w.progress.pos ≤ k) :
    Walks l' slot p ns w := by
  have hbind : ∀ {s : Slot} {slot : Nat} {p : Progress} {r : Except Miss Progress},
      p.pos ≤ k → l.bindHead s slot p = r → l'.bindHead s slot p = r :=
    fun hp hr => (hs.bindHead hp).trans hr
  induction h with
  | nil => exact .nil
  | @bound _ p q r _ _ _ _ w hb hc hn ihc ihn =>
    have hpos := Line.pos_of_bindHead hb
    have hqr : q.pos ≤ r.pos := hc.pos_le
    have hrw : r.pos ≤ w.progress.pos := hn.pos_le
    exact .bound (hbind (by omega) hb) (ihc (Nat.le_trans hrw hw)) (ihn hw)
  | @childFailed _ p q r _ _ _ _ _ hb hc ihc =>
    have hpos := Line.pos_of_bindHead hb
    have hqr : q.pos ≤ r.pos := hc.pos_le
    have hrk : r.pos ≤ k := hw
    exact .childFailed (hbind (by omega) hb) (ihc hrk)
  | refused hb hr => exact .refused (hbind hw hb) hr
  | skipped hb hsoft hr hn ihn =>
    have hp := Nat.le_trans hn.pos_le hw
    exact .skipped (hbind hp hb) hsoft hr (ihn hw)
  | @otherwise _ p q _ _ _ _ _ w hb hsoft ho hos hn iho ihn =>
    have hpq : p.pos ≤ q.pos := hos.pos_le
    have hqk : q.pos ≤ k := Nat.le_trans hn.pos_le hw
    exact .otherwise (hbind (Nat.le_trans hpq hqk) hb) hsoft ho (iho hqk) (ihn hw)
  | @branchFailed _ p q _ _ _ _ _ _ hb hsoft ho hos hf iho =>
    have hpq : p.pos ≤ q.pos := hos.pos_le
    exact .branchFailed (hbind (Nat.le_trans hpq hw) hb) hsoft ho (iho hw) hf
  -- a failure that is passed over lies where the alternative began
  | passed hb hsoft ho hos hi hx hr hn iho ihn =>
    have hp := Nat.le_trans hn.pos_le hw
    obtain rfl := hos.eq_of_index_le hx
    exact .passed (hbind hp hb) hsoft ho (iho hp) hi hx hr (ihn hw)
  | @noneLeft _ p q s _ _ _ _ _ hb hsoft ho hos hi hx hr iho =>
    obtain rfl := hos.eq_of_index_le hx
    have hp : q.pos ≤ k := hw
    rw [← hs.noAlternative hp]
    exact .noneLeft (hbind hp hb) hsoft ho (iho hp) hi hx hr

theorem Node.walk_of_shares {p : Progress} {w : Walked} (n : Node) (hs : l.Shares l' k)
    (h : n.walk l slot p = w) (hw : w.progress.pos ≤ k) : n.walk l' slot p = w := by
  rw [← walkAll_singleton] at h ⊢
  exact ((walks_iff.mpr h).of_shares hs hw).walkAll_eq

namespace Flags

variable {arbitrary : Bool} {candidates : List (Node × Nat)} {f f₀ g : Flags} {t : Token}
  {miss : Miss} {q : Progress}

theorem Steps.of_shares (hs : l.Shares l' k) (h : Steps l arbitrary candidates f t g)
    (hg : g.progress.pos ≤ k) : Steps l' arbitrary candidates f t g := by
  cases h with
  | pass hnone ha => exact .pass hnone ha
  | take hc hrival hp => exact .take hc hrival (walk_of_shares _ hs hp hg)

theorem Halts.of_shares (hs : l.Shares l' k) (h : Halts l arbitrary candidates f t miss q)
    (hq : q.pos ≤ k) : Halts l' arbitrary candidates f t miss q := by
  cases h with
  | unknown hnone ha =>
    rw [← hs.missAt hq, ← hs.tool]
    exact .unknown hnone ha
  | repeated hfirst hnone =>
    rw [← hs.missAt hq]
    exact .repeated hfirst hnone
  | conflicting hc hrival =>
    rw [← hs.missAt hq]
    exact .conflicting hc hrival
  | failed hc hrival hp => exact .failed hc hrival (walk_of_shares _ hs hp hq)

theorem Reaches.of_shares (hs : l.Shares l' k) (h : Reaches l arbitrary candidates f₀ f)
    (hf : f.progress.pos ≤ k) : Reaches l' arbitrary candidates f₀ f := by
  induction h with
  | refl => exact .refl
  | @tail f g _ _ ht hstep ih =>
    have hlt := hstep.pos_lt ht
    have hpos : f.progress.pos ≤ k := by omega
    exact (ih hpos).tail ((hs.getElem? hpos).trans ht) (hstep.of_shares hs hf)

end Flags

namespace Schema

variable {s : Schema} {A B : List Token} {name : Option Token} {miss : Miss} {q : Progress}

theorem shares_of_isPrefix (hk : k < A.length) (h : A.take (k + 1) <+: B) :
    (s.line A name).Shares (s.line B name) k where
  tool := rfl
  tokens := by
    intro i hi
    have hiA : i < A.length := by omega
    have htake : (A.take (k + 1))[i]? = some A[i] := by
      rw [List.getElem?_take_of_lt (by omega), List.getElem?_eq_getElem hiA]
    obtain ⟨rest, rfl⟩ := h
    refine ⟨A[i], List.getElem?_eq_getElem hiA, ?_⟩
    have hlt := (List.getElem?_eq_some_iff.mp htake).1
    exact (List.getElem?_append_left hlt).trans htake

/-- A failure at one of the shared tokens is a failure on both lines, with the same to say. -/
theorem Stops.of_shares (h : s.Stops (s.line A name) miss q)
    (hs : (s.line A name).Shares (s.line B name) q.pos) :
    ∃ miss', s.Stops (s.line B name) miss' q ∧ miss'.mismatch = miss.mismatch := by
  have hself : q.pos ≤ q.pos := Nat.le_refl _
  cases h with
  | node ho hq =>
    have hq' := ((walks_iff.mpr hq).of_shares hs hself).walkAll_eq
    exact ⟨miss, .node ho hq', rfl⟩
  | @trailing t ts _ ho hq hrest ha =>
    have hq' := ((walks_iff.mpr hq).of_shares hs hself).walkAll_eq
    obtain ⟨u, hu, hu'⟩ := hs.tokens q.pos hself
    have hrest' := Line.drop_of_getElem? hu'
    rw [Line.drop_of_getElem? hu] at hrest
    obtain ⟨rfl, -⟩ := List.cons.inj hrest
    exact ⟨_, .trailing ho hq' hrest' ha, rfl⟩
  | @flag f _ _ _ ho hf ht hq =>
    obtain ⟨g, hg⟩ := hq.reads
    have hfq : f.progress.pos ≤ q.pos := by
      rw [hg.pos]
      exact Nat.le_add_right _ _
    have hf' : s.Gathers (s.line B name) f := Flags.Reaches.of_shares hs hf hfq
    exact ⟨miss, .flag ho hf' ((hs.getElem? hfq).trans ht) (hq.of_shares hs hself), rfl⟩
  | missing _ _ hend _ =>
    obtain ⟨u, hu, -⟩ := hs.tokens _ hself
    have hlt := (List.getElem?_eq_some_iff.mp hu).1
    omega

/-- Refusals depend on what was read. Where the grammar stops at a token of `A`, every line that
starts with the tokens up to this one is refused with the same words at the same place; only the
span of what is too much goes on to the end of its own line. -/
theorem refusal_of_prefix (s : Schema) (name : Option Token) (A B : List Token) (miss : Miss)
    (q : Progress) (hA : s.OffFree A) (hB : s.OffFree B) (hstop : s.Stops (s.line A name) miss q)
    (hk : q.pos < A.length) (hsame : A.take (q.pos + 1) <+: B) :
    ∃ r r' σ σ', (s.matchTokens A name).refusal? = some r ∧
      (s.matchTokens B name).refusal? = some r' ∧ r'.kind = r.kind ∧ r'.message = r.message ∧
      r.span = some σ ∧ r'.span = some σ' ∧ σ'.line = σ.line ∧ σ'.startCol = σ.startCol ∧
      (r.kind ≠ .trailingArguments → σ' = σ) ∧
      (r.kind = .trailingArguments → A.getLast?.map (·.span.endCol) = some σ.endCol ∧
        B.getLast?.map (·.span.endCol) = some σ'.endCol) := by
  have hs : (s.line A name).Shares (s.line B name) q.pos := shares_of_isPrefix hk hsame
  obtain ⟨miss', hstop', hmismatch⟩ := hstop.of_shares hs
  obtain ⟨t, htA, htB⟩ := hs.tokens q.pos (Nat.le_refl _)
  have hneA : A ≠ [] := List.ne_nil_of_length_pos (by omega)
  have hneB : B ≠ [] := by
    rintro rfl
    simp [line] at htB
  obtain ⟨lastA, hlastA⟩ := Option.isSome_iff_exists.mp (List.getLast?_isSome.mpr hneA)
  obtain ⟨lastB, hlastB⟩ := Option.isSome_iff_exists.mp (List.getLast?_isSome.mpr hneB)
  have hspan := hstop.span_of_getElem? htA hlastA
  have hspan' := hstop'.span_of_getElem? htB hlastB
  rw [hmismatch] at hspan'
  refine ⟨miss.refusal, miss'.refusal, _, _, ?_, ?_, ?_, ?_, hspan, hspan', ?_⟩
  · rw [refused_of_stops hneA hA hstop]
    rfl
  · rw [refused_of_stops hneB hB hstop']
    rfl
  · rw [Miss.refusal, hmismatch, Miss.refusal]
  · rw [Miss.refusal, hmismatch, Miss.refusal]
  · rw [hlastA, hlastB]
    by_cases htrail : miss.mismatch.kind = .trailingArguments
    · simp [htrail, Miss.refusal, Span.covering]
    · simp [htrail, Miss.refusal]

/-- A number behind the duration is too much, whether or not more is written behind it. -/
theorem refusal_of_prefix_duration :
    let A : List Token := [⟨.number, "5", ⟨1, 5, 6⟩⟩, ⟨.number, "6", ⟨1, 7, 8⟩⟩]
    let B : List Token := A ++ [⟨.string, "now", ⟨1, 9, 12⟩⟩]
    ∃ miss q, Catalogue.duck.Stops (Catalogue.duck.line A none) miss q ∧
      q.pos < A.length ∧ A.take (q.pos + 1) <+: B ∧
      ∃ r r' σ σ', (Catalogue.duck.matchTokens A none).refusal? = some r ∧
        (Catalogue.duck.matchTokens B none).refusal? = some r' ∧ r'.kind = r.kind ∧
        r'.message = r.message ∧ r.span = some σ ∧ r'.span = some σ' ∧
        σ'.startCol = σ.startCol := by
  intro A B
  have hwalk : Catalogue.duck.walk (Catalogue.duck.line A none) =
      .error ⟨.trailing "6" "duck", 1, some ⟨1, 7, 8⟩⟩ := rfl
  obtain ⟨q, hstop⟩ := walk_eq_error_iff.mp hwalk
  have hpos : q.pos = 1 := hstop.index_eq.symm
  have hA : Catalogue.duck.OffFree A := fun _ => by decide +kernel
  have hB : Catalogue.duck.OffFree B := fun _ => by decide +kernel
  have hk : q.pos < A.length := by simp [hpos, A]
  have hsame : A.take (q.pos + 1) <+: B := by simp [hpos, A, B]
  obtain ⟨r, r', σ, σ', hr, hr', hkind, hmessage, hσ, hσ', -, hcol, -⟩ :=
    refusal_of_prefix Catalogue.duck none A B _ q hA hB hstop hk hsame
  exact ⟨_, q, hstop, hk, hsame, r, r', σ, σ', hr, hr', hkind, hmessage, hσ, hσ', hcol⟩

end Schema

end TasScript
