import TasScript.Catalogue.Basic
import TasScript.Proofs.Positions

/-! A tool that keeps the arguments it does not know, next to the same tool without that leave. As
long as nothing is kept the two walk in step, so the lenient tool only adds to what is accepted:
calls with something extra. -/

namespace TasScript

namespace Flags

variable {l : Line} {candidates : List (Node × Nat)} {f f₀ g : Flags} {t : Token} {miss : Miss}
  {q : Progress}

theorem Steps.lenient (h : Steps l false candidates f t g) : Steps l true candidates f t g := by
  cases h with
  | pass _ ha => contradiction
  | take hc hrival hp => exact .take hc hrival hp

theorem Reaches.lenient (h : Reaches l false candidates f₀ f) : Reaches l true candidates f₀ f := by
  induction h with
  | refl => exact .refl
  | tail _ ht hs ih => exact ih.tail ht hs.lenient

/-- What is kept stays kept: a step that ends without extra tokens has passed over none. -/
theorem Steps.strict (h : Steps l true candidates f t g) (hg : g.extra = []) :
    Steps l false candidates f t g ∧ f.extra = [] := by
  cases h with
  | pass => simp [Flags.pass] at hg
  | take hc hrival hp => exact ⟨.take hc hrival hp, hg⟩

theorem Reaches.strict (h : Reaches l true candidates f₀ f) (hf : f.extra = []) :
    Reaches l false candidates f₀ f := by
  induction h with
  | refl => exact .refl
  | tail _ ht hs ih =>
    obtain ⟨hstep, hnil⟩ := hs.strict hf
    exact (ih hnil).tail ht hstep

theorem Halts.lenient (h : Halts l false candidates f t miss q)
    (hk : miss.mismatch.kind ≠ .unknownArgument) : Halts l true candidates f t miss q := by
  cases h with
  | unknown =>
    rw [Line.missAt_mismatch] at hk
    exact absurd rfl hk
  | repeated hfirst hnone => exact .repeated hfirst hnone
  | conflicting hc hrival => exact .conflicting hc hrival
  | failed hc hrival hq => exact .failed hc hrival hq

end Flags

/-- The tokens stand side by side on one line, and none of them is empty. -/
structure SideBySide (tokens : List Token) : Prop where
  width : ∀ t ∈ tokens, t.span.startCol < t.span.endCol
  order : tokens.Pairwise fun t u => u.span.line = t.span.line ∧ t.span.endCol ≤ u.span.startCol

namespace SideBySide

variable {t : Token} {ts tokens : List Token} {σ : Span}

theorem drop (h : SideBySide tokens) (k : Nat) : SideBySide (tokens.drop k) :=
  ⟨fun t ht => h.width t (List.mem_of_mem_drop ht), h.order.drop⟩

theorem laidOut (h : SideBySide (t :: ts)) : LaidOut t ts where
  line := fun _ hu => (List.rel_of_pairwise_cons h.order hu).1
  width := fun u hu => Nat.le_of_lt (h.width u hu)
  order := (h.order.imp And.right).isChain

/-- The span of the tokens behind the first `k` has just these tokens within it. -/
theorem filter_within (h : SideBySide tokens) {k : Nat} (hσ : spanOf? (tokens.drop k) = some σ) :
    tokens.filter (fun t => decide (σ.Within t.span)) = tokens.drop k := by
  obtain ⟨t, ts, hdrop⟩ : ∃ t ts, tokens.drop k = t :: ts := by
    apply List.exists_cons_of_ne_nil
    intro hnil
    simp [hnil, spanOf?] at hσ
  have hwhole : σ = wholeSpan t ts := by
    rw [hdrop, spanOf?, List.head?_cons, List.getLast?_cons] at hσ
    exact (Option.some.inj hσ).symm
  have horder := h.order
  rw [← List.take_append_drop k tokens, List.pairwise_append] at horder
  have hbefore : (tokens.take k).filter (fun u => decide (σ.Within u.span)) = [] := by
    apply List.filter_eq_nil_iff.mpr
    intro u hu
    have hwidth := h.width u (List.mem_of_mem_take hu)
    have hcolumns := (horder.2.2 u hu t (by simp [hdrop])).2
    rw [decide_eq_true_iff]
    intro hwithin
    have hstart : t.span.startCol ≤ u.span.startCol := by
      rw [hwhole] at hwithin
      exact hwithin.start
    omega
  have hbehind : (tokens.drop k).filter (fun u => decide (σ.Within u.span)) = tokens.drop k := by
    apply List.filter_eq_self.mpr
    intro u hu
    have hlaid := h.drop k
    rw [hdrop] at hlaid hu
    rw [decide_eq_true_iff, hwhole]
    exact hlaid.laidOut.within_token hu
  conv_lhs => rw [← List.take_append_drop k tokens]
  rw [List.filter_append, hbefore, hbehind, List.nil_append]

end SideBySide

open Node

namespace Schema

/-- The same tool, with leave to keep what its grammar does not know. -/
def lenient (s : Schema) : Schema := { s with allowArbitraryArguments := true }

variable {s : Schema} {l : Line} {f : Flags} {miss : Miss} {q : Progress} {tokens : List Token}
  {name : Option Token} {values : List (Option Value)} {extra : List Token} {r : Refusal}

theorem Gathers.lenient (hs : s.allowArbitraryArguments = false) (h : s.Gathers l f) :
    s.lenient.Gathers l f := by
  unfold Gathers at h
  rw [hs] at h
  exact Flags.Reaches.lenient h

theorem Gathers.strict (hs : s.allowArbitraryArguments = false) (h : s.lenient.Gathers l f)
    (hf : f.extra = []) : s.Gathers l f := by
  unfold Gathers
  rw [hs]
  exact Flags.Reaches.strict h hf

theorem extra_of_walk (hs : s.allowArbitraryArguments = false)
    (h : s.walk l = .ok (values, extra)) : extra = [] := by
  obtain ⟨g, hg⟩ := walk_accounts h
  by_contra hne
  simp [hg.allowed hne] at hs

theorem walk_eq_ok_iff_lenient (hs : s.allowArbitraryArguments = false) :
    s.walk l = .ok (values, extra) ↔ s.lenient.walk l = .ok (values, extra) ∧ extra = [] := by
  refine ⟨fun h => ⟨?_, extra_of_walk hs h⟩, fun ⟨h, he⟩ => ?_⟩
  · cases ho : s.fixedOrder with
    | true =>
      rw [walk_of_ordered ho] at h
      obtain ⟨p, hp, hv, he, -⟩ := walkOrdered_eq_ok_iff.mp h
      rw [walk_of_ordered (s := s.lenient) ho]
      exact walkOrdered_eq_ok_iff.mpr ⟨p, hp, hv, he, fun _ => rfl⟩
    | false =>
      rw [walk_of_flags ho] at h
      obtain ⟨f, hf, hend, hmissing, hv, he⟩ := walkFlags_eq_ok_iff.mp h
      rw [walk_of_flags (s := s.lenient) ho]
      exact walkFlags_eq_ok_iff.mpr ⟨f, hf.lenient hs, hend, hmissing, hv, he⟩
  · cases ho : s.fixedOrder with
    | true =>
      rw [walk_of_ordered (s := s.lenient) ho] at h
      obtain ⟨p, hp, hv, hrest, -⟩ := walkOrdered_eq_ok_iff.mp h
      rw [walk_of_ordered ho]
      exact walkOrdered_eq_ok_iff.mpr ⟨p, hp, hv, hrest, fun hne => absurd he hne⟩
    | false =>
      rw [walk_of_flags (s := s.lenient) ho] at h
      obtain ⟨f, hf, hend, hmissing, hv, hkept⟩ := walkFlags_eq_ok_iff.mp h
      rw [walk_of_flags ho]
      exact walkFlags_eq_ok_iff.mpr ⟨f, hf.strict hs (hkept ▸ he), hend, hmissing, hv, hkept⟩

theorem Stops.lenient (hs : s.allowArbitraryArguments = false) (h : s.Stops l miss q)
    (ht : miss.mismatch.kind ≠ .trailingArguments)
    (hu : miss.mismatch.kind ≠ .unknownArgument) : s.lenient.Stops l miss q := by
  cases h with
  | node ho hq => exact .node ho hq
  | trailing => exact absurd rfl ht
  | flag ho hf hget hq =>
    rw [hs] at hq
    exact .flag ho (hf.lenient hs) hget (hq.lenient hu)
  | missing ho hf hend hlabels => exact .missing ho (hf.lenient hs) hend hlabels

/-- In fixed order the tokens that are too much are those that the lenient tool keeps. -/
theorem Stops.kept (ho : s.fixedOrder = true) (h : s.Stops l miss q)
    (hk : miss.mismatch.kind = .trailingArguments) :
    miss.span = spanOf? (l.tokens.drop q.pos) ∧ l.tokens.drop q.pos ≠ [] ∧
      s.lenient.walk l = .ok (q.values, l.tokens.drop q.pos) := by
  cases h with
  | node _ hq =>
    obtain ⟨m, rfl, hm⟩ := (walks_iff.mpr hq).located rfl
    rw [Line.missAt_mismatch] at hk
    exact absurd hk (m.kind_ne_of_isOfNode hm rfl)
  | trailing _ hq hrest =>
    rw [walk_of_ordered (s := s.lenient) ho, walkOrdered_eq_ok_iff, hrest]
    exact ⟨rfl, by simp, q, hq, rfl, hrest.symm, fun _ => rfl⟩
  | flag hf => simp [ho] at hf
  | missing hf => simp [ho] at hf

theorem stops_of_kept (hs : s.allowArbitraryArguments = false) (ho : s.fixedOrder = true)
    (h : s.lenient.walk l = .ok (values, extra)) (hne : extra ≠ []) :
    ∃ miss q, s.Stops l miss q ∧ miss.mismatch.kind = .trailingArguments := by
  rw [walk_of_ordered (s := s.lenient) ho] at h
  obtain ⟨p, hp, -, rfl, -⟩ := walkOrdered_eq_ok_iff.mp h
  obtain ⟨t, ts, hrest⟩ := List.exists_cons_of_ne_nil hne
  exact ⟨_, p, .trailing ho hp hrest hs, rfl⟩

/-- Without arguments, or turned off, a tool does not look at its grammar. -/
theorem judge_lenient (h : l.tokens ≠ [] → s.hasOff = true ∧ offTokens l.tokens ≠ []) :
    s.lenient.judge l = s.judge l := by
  by_cases hnil : l.tokens = []
  · simp only [judge, hnil, List.isEmpty_nil, if_true]
    rfl
  · obtain ⟨hoff, hne⟩ := h hnil
    obtain ⟨t, ts, hcons⟩ := List.exists_cons_of_ne_nil hne
    have hempty : l.tokens.isEmpty = false := by simpa using hnil
    have hlenient : s.lenient.hasOff = true := hoff
    simp only [judge, hempty, hoff, hlenient, hcons, List.head?_cons, Bool.false_eq_true, if_true,
      if_false]

theorem lenient_same_or_walked (s : Schema) (tokens : List Token) (name : Option Token) :
    s.lenient.matchTokens tokens name =
        { s.matchTokens tokens name with schema := some s.lenient } ∨
      tokens ≠ [] ∧ s.OffFree tokens := by
  by_cases hwalked : tokens ≠ [] ∧ (s.hasOff = true → offTokens tokens = [])
  · exact .inr ⟨hwalked.1, offFree_of_offTokens hwalked.2⟩
  · left
    have hjudge : s.lenient.judge (s.lenient.line tokens name) = s.judge (s.line tokens name) :=
      judge_lenient fun hne => Classical.not_imp.mp fun h => hwalked ⟨hne, h⟩
    unfold matchTokens
    dsimp only
    rw [hjudge]
    cases s.judge (s.line tokens name) <;> rfl

theorem extra_of_strict (hs : s.allowArbitraryArguments = false) :
    (s.matchTokens tokens name).extra = [] := by
  cases hv : (s.matchTokens tokens name).verdict with
  | bound values extra =>
    rw [Match.extra, hv]
    rcases walk_of_bound hv with ⟨-, -, hextra⟩ | ⟨-, hw⟩
    · exact hextra
    · exact extra_of_walk hs hw
  | off => rw [Match.extra, hv]
  | refused r => rw [Match.extra, hv]

theorem lenient_of_succeeded (hs : s.allowArbitraryArguments = false)
    (h : (s.matchTokens tokens name).succeeded = true) :
    s.lenient.matchTokens tokens name =
      { s.matchTokens tokens name with schema := some s.lenient } := by
  rcases s.lenient_same_or_walked tokens name with hsame | ⟨hne, hoff⟩
  · exact hsame
  · obtain ⟨values, extra, hw, hm⟩ := walk_of_succeeded hne hoff h
    have hlenient := ((walk_eq_ok_iff_lenient hs).mp hw).1
    have hjudge : s.lenient.judge (s.lenient.line tokens name) = .ok (.bound values extra) :=
      judge_of_walk hne hoff.offTokens hlenient
    rw [hm, matchTokens_of_judge hjudge]
    rfl

theorem succeeded_of_lenient (hs : s.allowArbitraryArguments = false)
    (h : (s.lenient.matchTokens tokens name).succeeded = true)
    (hextra : (s.lenient.matchTokens tokens name).extra = []) :
    (s.matchTokens tokens name).succeeded = true := by
  rcases s.lenient_same_or_walked tokens name with hsame | ⟨hne, hoff⟩
  · rw [hsame] at h
    exact h
  · obtain ⟨values, extra, hw, hm⟩ := walk_of_succeeded (s := s.lenient) hne hoff h
    rw [hm] at hextra
    have hstrict := (walk_eq_ok_iff_lenient hs).mpr ⟨hw, hextra⟩
    rw [matchTokens_of_judge (judge_of_walk hne hoff.offTokens hstrict)]
    rfl

theorem values_lenient :
    ({ s.matchTokens tokens name with schema := some s.lenient } : Match).values =
      (s.matchTokens tokens name).values := by
  unfold Match.values
  rw [matchTokens_schema]
  rfl

theorem refusal_lenient (hs : s.allowArbitraryArguments = false)
    (h : (s.matchTokens tokens name).refusal? = some r) (ht : r.kind ≠ .trailingArguments)
    (hu : r.kind ≠ .unknownArgument) :
    (s.lenient.matchTokens tokens name).refusal? = some r ∧
      (s.lenient.matchTokens tokens name).span = (s.matchTokens tokens name).span := by
  rcases s.lenient_same_or_walked tokens name with hsame | ⟨hne, hoff⟩
  · rw [hsame]
    exact ⟨h, rfl⟩
  · obtain ⟨miss, q, hstop, rfl⟩ := (refusal?_eq_some_iff hne hoff).mp h
    have hstrict := refused_of_stops hne hoff hstop
    have hlenient := refused_of_stops (s := s.lenient) hne hoff (hstop.lenient hs ht hu)
    rw [hlenient, hstrict]
    exact ⟨rfl, rfl⟩

theorem kept_of_trailing (ho : s.fixedOrder = true)
    (h : (s.matchTokens tokens name).refusal? = some r) (hk : r.kind = .trailingArguments) :
    ∃ values k, tokens.drop k ≠ [] ∧ r.span = spanOf? (tokens.drop k) ∧
      (s.lenient.matchTokens tokens name).verdict = .bound values (tokens.drop k) := by
  obtain ⟨-, ⟨-, hkind, -⟩ | ⟨t, -, -, hkind, -⟩ | ⟨hne, hoff, miss, q, hstop, rfl⟩⟩ :=
    refusal_cases h
  · simp [hkind] at hk
  · simp [hkind] at hk
  · obtain ⟨hspan, hrest, hw⟩ := hstop.kept ho hk
    have hjudge : s.lenient.judge (s.lenient.line tokens name) =
        .ok (.bound q.values (tokens.drop q.pos)) := judge_of_walk hne hoff.offTokens hw
    exact ⟨q.values, q.pos, hrest, hspan, by rw [matchTokens_of_judge hjudge]⟩

theorem trailing_of_kept (hs : s.allowArbitraryArguments = false) (ho : s.fixedOrder = true)
    (h : (s.lenient.matchTokens tokens name).succeeded = true)
    (hextra : (s.lenient.matchTokens tokens name).extra ≠ []) :
    ∃ r, (s.matchTokens tokens name).refusal? = some r ∧ r.kind = .trailingArguments := by
  rcases s.lenient_same_or_walked tokens name with hsame | ⟨hne, hoff⟩
  · rw [hsame] at hextra
    exact absurd (extra_of_strict hs) hextra
  · obtain ⟨values, extra, hw, hm⟩ := walk_of_succeeded (s := s.lenient) hne hoff h
    rw [hm] at hextra
    obtain ⟨miss, q, hstop, hk⟩ := stops_of_kept hs ho hw hextra
    exact ⟨miss.refusal, (refusal?_eq_some_iff hne hoff).mpr ⟨miss, q, hstop, rfl⟩, hk⟩

/-- Leave to keep unknown arguments only adds to what a tool accepts, and what it adds has something
extra. A refusal for another reason stays as it is; in fixed order what was too much is what is
kept, the tokens that the refusal pointed to. -/
theorem lenient_extends (s : Schema) (hs : s.allowArbitraryArguments = false)
    (tokens : List Token) (name : Option Token) :
    let m := s.matchTokens tokens name
    let m' := s.lenient.matchTokens tokens name
    (m.succeeded = true ↔ m'.succeeded = true ∧ m'.extra = []) ∧
    (m.succeeded = true → m'.values = m.values ∧ m'.isOff = m.isOff ∧ m'.span = m.span) ∧
    (∀ r, m.refusal? = some r → r.kind ≠ .trailingArguments → r.kind ≠ .unknownArgument →
      m'.refusal? = some r ∧ m'.span = m.span) ∧
    (s.fixedOrder = true →
      ((∃ r, m.refusal? = some r ∧ r.kind = .trailingArguments) ↔
        m'.succeeded = true ∧ m'.extra ≠ []) ∧
      ∀ r, m.refusal? = some r → r.kind = .trailingArguments →
        r.span = spanOf? m'.extra ∧ (∃ k, m'.extra = tokens.drop k) ∧
        (SideBySide tokens → ∀ σ, r.span = some σ →
          m'.extra = tokens.filter fun t => decide (σ.Within t.span))) := by
  intro m m'
  refine ⟨⟨fun h => ?_, fun ⟨h, hextra⟩ => succeeded_of_lenient hs h hextra⟩, fun h => ?_,
    fun r => refusal_lenient hs, fun ho => ⟨⟨?_, fun ⟨h, he⟩ => trailing_of_kept hs ho h he⟩, ?_⟩⟩
  · have hm' : m' = { m with schema := some s.lenient } := lenient_of_succeeded hs h
    rw [hm']
    exact ⟨h, extra_of_strict hs⟩
  · have hm' : m' = { m with schema := some s.lenient } := lenient_of_succeeded hs h
    rw [hm']
    exact ⟨values_lenient, rfl, rfl⟩
  · rintro ⟨r, hr, hk⟩
    obtain ⟨values, k, hrest, -, hv⟩ := kept_of_trailing ho hr hk
    have hv' : m'.verdict = .bound values (tokens.drop k) := hv
    simp [Match.succeeded, Match.extra, hv', hrest]
  · intro r hr hk
    obtain ⟨values, k, -, hspan, hv⟩ := kept_of_trailing ho hr hk
    have hextra : m'.extra = tokens.drop k := by
      have hv' : m'.verdict = .bound values (tokens.drop k) := hv
      rw [Match.extra, hv']
    rw [hextra]
    refine ⟨hspan, ⟨k, rfl⟩, fun hside σ hσ => ?_⟩
    exact (hside.filter_within (hspan.symm.trans hσ)).symm

/-- A word too many behind `duck`, and two directions for the strafe tool. -/
theorem lenient_extends_duck :
    let tokens : List Token := [⟨.string, "on", ⟨2, 5, 7⟩⟩, ⟨.string, "slowly", ⟨2, 8, 14⟩⟩]
    let m' := Catalogue.duck.lenient.matchTokens tokens none
    let turns : List Token := [⟨.string, "left", ⟨3, 7, 11⟩⟩, ⟨.string, "right", ⟨3, 12, 17⟩⟩]
    SideBySide tokens ∧ m'.succeeded = true ∧ m'.extra ≠ [] ∧
      (∃ r σ, (Catalogue.duck.matchTokens tokens none).refusal? = some r ∧
        r.kind = .trailingArguments ∧ r.span = some σ ∧ some σ = spanOf? m'.extra ∧
        m'.extra = tokens.filter fun t => decide (σ.Within t.span)) ∧
      ∃ r, (Catalogue.strafe.matchTokens turns none).refusal? = some r ∧
        r.kind = .conflictingArguments ∧
        (Catalogue.strafe.lenient.matchTokens turns none).refusal? = some r := by
  intro tokens m' turns
  have hside : SideBySide tokens := ⟨by decide, by simp [tokens]⟩
  obtain ⟨-, -, -, hordered⟩ := lenient_extends Catalogue.duck rfl tokens none
  obtain ⟨hiff, hkept⟩ := hordered rfl
  have hrefusal : (Catalogue.duck.matchTokens tokens none).refusal? =
      some ⟨.trailingArguments, "unexpected argument 'slowly' for 'duck'", some ⟨2, 8, 14⟩⟩ := by
    decide +kernel
  obtain ⟨hok, hextra⟩ := hiff.mp ⟨_, hrefusal, rfl⟩
  obtain ⟨hspan, -, hfilter⟩ := hkept _ hrefusal rfl
  obtain ⟨-, -, hrefused, -⟩ := lenient_extends Catalogue.strafe rfl turns none
  have hturns : (Catalogue.strafe.matchTokens turns none).refusal? = some ⟨.conflictingArguments,
      "'right' conflicts with 'left'", some ⟨3, 12, 17⟩⟩ := by decide +kernel
  obtain ⟨hsame, -⟩ := hrefused _ hturns (by simp) (by simp)
  exact ⟨hside, hok, hextra, ⟨_, _, hrefusal, rfl, rfl, hspan, hfilter hside _ rfl⟩, _, hturns, rfl,
    hsame⟩

end Schema

end TasScript
