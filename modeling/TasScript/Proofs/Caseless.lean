import Mathlib.Data.List.Forall2
import TasScript.Proofs.Conformance
import TasScript.Proofs.LetterCase
import TasScript.Proofs.Stopping

/-! Grammars do not look at the case of ASCII letters. Two lines whose tokens differ in it alone are
matched step by step in the same way, and only free words keep the letters they were written in. -/

namespace TasScript

open Node

/-- The token as it is written in small letters. -/
def Token.small (t : Token) : Token := { t with text := t.text.toLower }

def Value.small : Value → Value
  | .word s => .word s.toLower
  | .amount q => .amount q

def Progress.small (p : Progress) : Progress := ⟨p.pos, p.values.map (Option.map Value.small)⟩

def Line.small (l : Line) : Line := { l with tokens := l.tokens.map Token.small }

/-- A failure without its words. -/
def Miss.place (m : Miss) : RefusalKind × Nat × Option Span := (m.mismatch.kind, m.index, m.span)

/-- A refusal is left without its words. -/
def Verdict.small : Verdict → Verdict
  | .bound values extra => .bound (values.map (Option.map Value.small)) (extra.map Token.small)
  | .off => .off
  | .refused r => .refused { r with message := "" }

def Match.small (m : Match) : Match := { m with verdict := m.verdict.small }

def Walked.small : Walked → Option (RefusalKind × Nat × Option Span) × Progress
  | .done p => (none, p.small)
  | .failed miss p => (some miss.place, p.small)

theorem Token.span_eq {t u : Token} (h : u.small = t.small) : u.span = t.span := by
  have hspan : u.small.span = t.small.span := congrArg Token.span h
  exact hspan

theorem Progress.pos_eq {p q : Progress} (h : q.small = p.small) : q.pos = p.pos := by
  have hpos : q.small.pos = p.small.pos := congrArg Progress.pos h
  exact hpos

theorem Progress.bind_small {p q : Progress} {v w : Value} (h : q.small = p.small)
    (hv : w.small = v.small) (slot : Nat) : (q.bind slot w).small = (p.bind slot v).small := by
  have hvalues : q.small.values = p.small.values := congrArg Progress.values h
  simp only [small] at hvalues
  simp only [bind, small, pos_eq h, List.map_set, Option.map_some, hv, hvalues]

theorem spanOf?_small (ts : List Token) : spanOf? (ts.map Token.small) = spanOf? ts := by
  simp only [spanOf?, List.head?_map, List.getLast?_map]
  cases ts.head? <;> cases ts.getLast? <;> rfl

theorem spanOf?_eq {ts us : List Token} (h : us.map Token.small = ts.map Token.small) :
    spanOf? us = spanOf? ts := by
  rw [← spanOf?_small us, h, spanOf?_small]

section Slots

variable {s : Slot} {t u : Token} {v : Value} {m : Mismatch}

theorem Token.isKeyword_small (t : Token) (keyword : String) :
    t.small.isKeyword keyword = t.isKeyword keyword := by
  unfold isKeyword sameFolded small
  rw [lower_toLower]

theorem Slot.acceptsUnit_toLower (s : Slot) (suffix : String) :
    s.acceptsUnit suffix.toLower = s.acceptsUnit suffix := by
  simp only [acceptsUnit, isEmpty_toLower, sameFolded, lower_toLower]

theorem Slot.fits_small (s : Slot) (t : Token) : s.fits t.small = s.fits t := by
  have hnumber : t.small.isNumber = t.isNumber := rfl
  have htext : t.small.text = t.text.toLower := rfl
  unfold fits
  simp only [Token.isKeyword_small, hnumber, htext, lower_toLower, splitNumber?_toLower]
  cases splitNumber? t.text with
  | none => rfl
  | some r => simp only [Option.map_some, acceptsUnit_toLower]

/-- What becomes of a token in a slot, letters and words apart. -/
def Slot.outcome (s : Slot) (t : Token) : Except RefusalKind Value :=
  match s.bind t with
  | .ok v => .ok v.small
  | .error m => .error m.kind

theorem Slot.outcome_small (s : Slot) (t : Token) : s.outcome t.small = s.outcome t := by
  have hnumber : t.small.isNumber = t.isNumber := rfl
  have htext : t.small.text = t.text.toLower := rfl
  unfold outcome bind
  cases s.text with
  | some text =>
    by_cases hk : t.isKeyword text = true
    · simp only [Token.isKeyword_small, if_pos hk]
    · simp only [Token.isKeyword_small, if_neg hk]
      rfl
  | none =>
    cases s.kind with
    | number =>
      simp only [bindNumber, hnumber, htext, splitNumber?_toLower]
      by_cases hn : t.isNumber = true
      · simp only [if_pos hn]
        cases splitNumber? t.text with
        | none => rfl
        | some r =>
          simp only [Option.map_some, acceptsUnit_toLower]
          by_cases hu : s.acceptsUnit r.2 = true
          · simp only [if_pos hu]
          · simp only [if_neg hu, kind_unitMismatch]
      · simp only [if_neg hn]
        rfl
    | string =>
      simp only [bindWord, hnumber, htext, lower_toLower]
      by_cases hn : t.isNumber = true
      · simp only [if_pos hn]
        rfl
      · simp only [if_neg hn]
        cases s.choices with
        | none => exact congrArg (Except.ok ∘ Value.word) (toLower_toLower_text t.text)
        | some choices =>
          by_cases hc : choices.contains (lower t.text) = true
          · simp only [if_pos hc]
          · simp only [if_neg hc]
            rfl

theorem Slot.outcome_eq (h : u.small = t.small) : s.outcome u = s.outcome t := by
  rw [← s.outcome_small u, h, s.outcome_small]

theorem Slot.fits_eq (h : u.small = t.small) : s.fits u = s.fits t := by
  rw [← s.fits_small u, h, s.fits_small]

theorem Slot.bind_eq_ok (h : u.small = t.small) (hb : s.bind t = .ok v) :
    ∃ w, s.bind u = .ok w ∧ w.small = v.small := by
  have hout := s.outcome_eq h
  unfold outcome at hout
  rw [hb] at hout
  cases hu : s.bind u with
  | ok w => exact ⟨w, rfl, by simpa [hu] using hout⟩
  | error m => simp [hu] at hout

theorem Slot.bind_eq_error (h : u.small = t.small) (hb : s.bind t = .error m) :
    ∃ m', s.bind u = .error m' ∧ m'.kind = m.kind := by
  have hout := s.outcome_eq h
  unfold outcome at hout
  rw [hb] at hout
  cases hu : s.bind u with
  | ok w => simp [hu] at hout
  | error m' => exact ⟨m', rfl, by simpa [hu] using hout⟩

end Slots

theorem Mismatch.isSoft_eq {m m' : Mismatch} (h : m'.kind = m.kind) : m'.isSoft = m.isSoft := by
  rw [isSoft, h, isSoft]

namespace Line

variable {l l' : Line} {p p' q : Progress} {s : Slot} {slot pos : Nat} {miss : Miss}

theorem getElem?_small (h : l'.small = l.small) (pos : Nat) :
    l'.tokens[pos]?.map Token.small = l.tokens[pos]?.map Token.small := by
  rw [← List.getElem?_map, ← List.getElem?_map]
  exact congrArg (·.tokens[pos]?) h

theorem exists_getElem? (h : l'.small = l.small) {t : Token} (ht : l.tokens[pos]? = some t) :
    ∃ u, l'.tokens[pos]? = some u ∧ u.small = t.small := by
  have hmap := getElem?_small h pos
  rw [ht] at hmap
  exact Option.map_eq_some_iff.mp hmap

theorem getElem?_eq_none (h : l'.small = l.small) (ht : l.tokens[pos]? = none) :
    l'.tokens[pos]? = none := by
  have hmap := getElem?_small h pos
  rw [ht] at hmap
  exact Option.map_eq_none_iff.mp hmap

theorem length_tokens_eq (h : l'.small = l.small) : l'.tokens.length = l.tokens.length := by
  have hlen := congrArg (·.tokens.length) h
  simpa [small] using hlen

theorem drop_small (h : l'.small = l.small) (k : Nat) :
    (l'.tokens.drop k).map Token.small = (l.tokens.drop k).map Token.small := by
  rw [List.map_drop, List.map_drop]
  exact congrArg (·.tokens.drop k) h

theorem endSpan?_small (l : Line) : l.small.endSpan? = l.endSpan? := by
  simp only [endSpan?, small, List.getLast?_map]
  cases l.tokens.getLast? <;> rfl

theorem fullSpan?_small (l : Line) : l.small.fullSpan? = l.fullSpan? := by
  simp only [fullSpan?, small, List.head?_map, List.getLast?_map]
  cases l.nameToken <;> cases l.tokens.head? <;> cases l.tokens.getLast? <;> rfl

theorem endSpan?_eq (h : l'.small = l.small) : l'.endSpan? = l.endSpan? := by
  rw [← l'.endSpan?_small, h, l.endSpan?_small]

theorem fullSpan?_eq (h : l'.small = l.small) : l'.fullSpan? = l.fullSpan? := by
  rw [← l'.fullSpan?_small, h, l.fullSpan?_small]

theorem place_missAt (h : l'.small = l.small) {m m' : Mismatch} (hm : m'.kind = m.kind) :
    (l'.missAt pos m').place = (l.missAt pos m).place := by
  cases ht : l.tokens[pos]? with
  | none => simp only [missAt, ht, getElem?_eq_none h ht, endSpan?_eq h, Miss.place, hm]
  | some t =>
    obtain ⟨u, hu, hsmall⟩ := exists_getElem? h ht
    simp only [missAt, ht, hu, Miss.place, hm, Token.span_eq hsmall]

theorem bindHead_eq_ok_of_small (h : l'.small = l.small) (hp : p'.small = p.small)
    (hb : l.bindHead s slot p = .ok q) :
    ∃ q', l'.bindHead s slot p' = .ok q' ∧ q'.small = q.small := by
  obtain ⟨t, v, ht, hv, rfl⟩ := bindHead_eq_ok hb
  obtain ⟨u, hu, hsmall⟩ := exists_getElem? h ht
  obtain ⟨w, hw, hwv⟩ := Slot.bind_eq_ok hsmall hv
  refine ⟨p'.bind slot w, ?_, Progress.bind_small hp hwv slot⟩
  simp only [bindHead, Progress.pos_eq hp, hu, hw]

theorem bindHead_eq_error_of_small (h : l'.small = l.small) (hp : p'.small = p.small)
    (hb : l.bindHead s slot p = .error miss) :
    ∃ miss', l'.bindHead s slot p' = .error miss' ∧ miss'.place = miss.place := by
  unfold bindHead at hb ⊢
  rw [Progress.pos_eq hp]
  cases ht : l.tokens[p.pos]? with
  | none =>
    rw [ht] at hb
    obtain rfl := Except.error.inj hb
    rw [getElem?_eq_none h ht]
    exact ⟨_, rfl, place_missAt h rfl⟩
  | some t =>
    obtain ⟨u, hu, hsmall⟩ := exists_getElem? h ht
    rw [ht] at hb
    cases hbind : s.bind t with
    | ok v => simp [hbind] at hb
    | error m =>
      obtain ⟨m', hm', hkind⟩ := Slot.bind_eq_error hsmall hbind
      simp only [hbind, Except.error.injEq] at hb
      subst hb
      rw [hu]
      simp only [hm']
      exact ⟨_, rfl, place_missAt h hkind⟩

theorem place_noAlternative (h : l'.small = l.small) (hp : p'.small = p.small) :
    (l'.noAlternative s p').place = (l.noAlternative s p).place := by
  rw [noAlternative, length_tokens_eq h, Progress.pos_eq hp, noAlternative]
  exact place_missAt h rfl

end Line

theorem Miss.isSoft_eq {miss miss' : Miss} (h : miss'.place = miss.place) :
    miss'.mismatch.isSoft = miss.mismatch.isSoft := by
  have hkind : miss'.place.1 = miss.place.1 := congrArg Prod.fst h
  exact Mismatch.isSoft_eq hkind

theorem Miss.index_eq {miss miss' : Miss} (h : miss'.place = miss.place) :
    miss'.index = miss.index := by
  have hindex : miss'.place.2.1 = miss.place.2.1 := congrArg (·.2.1) h
  exact hindex

theorem Walked.small_eq_done {w : Walked} {p : Progress} (h : w.small = (Walked.done p).small) :
    ∃ q, w = .done q ∧ q.small = p.small := by
  cases w with
  | done q => exact ⟨q, rfl, congrArg Prod.snd h⟩
  | failed miss q => simp [small] at h

theorem Walked.small_eq_failed {w : Walked} {miss : Miss} {p : Progress}
    (h : w.small = (Walked.failed miss p).small) :
    ∃ miss' q, w = .failed miss' q ∧ miss'.place = miss.place ∧ q.small = p.small := by
  cases w with
  | done q => simp [small] at h
  | failed miss' q =>
    exact ⟨miss', q, rfl, Option.some.inj (congrArg Prod.fst h), congrArg Prod.snd h⟩

variable {l l' : Line}

theorem Node.Walks.of_small {slot : Nat} {p p' : Progress} {ns : List Node} {w : Walked}
    (hl : l'.small = l.small) (h : Walks l slot p ns w) (hp : p'.small = p.small) :
    ∃ w', Walks l' slot p' ns w' ∧ w'.small = w.small := by
  induction h generalizing p' with
  | nil => exact ⟨_, .nil, congrArg (none, ·) hp⟩
  | bound hb _ _ ihc ihn =>
    obtain ⟨q', hb', hq⟩ := Line.bindHead_eq_ok_of_small hl hp hb
    obtain ⟨wc, hwc, hc⟩ := ihc hq
    obtain ⟨r', rfl, hr⟩ := Walked.small_eq_done hc
    obtain ⟨w', hw', hw⟩ := ihn hr
    exact ⟨w', .bound hb' hwc hw', hw⟩
  | childFailed hb _ ihc =>
    obtain ⟨q', hb', hq⟩ := Line.bindHead_eq_ok_of_small hl hp hb
    obtain ⟨wc, hwc, hc⟩ := ihc hq
    obtain ⟨miss', r', rfl, -, -⟩ := Walked.small_eq_failed hc
    exact ⟨_, .childFailed hb' hwc, hc⟩
  | refused hb hr =>
    obtain ⟨miss', hb', hm⟩ := Line.bindHead_eq_error_of_small hl hp hb
    refine ⟨_, .refused hb' (by rwa [Miss.isSoft_eq hm]), ?_⟩
    simp only [Walked.small, hm, hp]
  | skipped hb hsoft hr _ ihn =>
    obtain ⟨miss', hb', hm⟩ := Line.bindHead_eq_error_of_small hl hp hb
    obtain ⟨w', hw', hw⟩ := ihn hp
    exact ⟨w', .skipped hb' ((Miss.isSoft_eq hm).trans hsoft) hr hw', hw⟩
  | otherwise hb hsoft ho _ _ iho ihn =>
    obtain ⟨miss', hb', hm⟩ := Line.bindHead_eq_error_of_small hl hp hb
    obtain ⟨wo, hwo, ho'⟩ := iho hp
    obtain ⟨q', rfl, hq⟩ := Walked.small_eq_done ho'
    obtain ⟨w', hw', hw⟩ := ihn hq
    exact ⟨w', .otherwise hb' ((Miss.isSoft_eq hm).trans hsoft) ho hwo hw', hw⟩
  | branchFailed hb hsoft ho _ hf iho =>
    obtain ⟨miss', hb', hm⟩ := Line.bindHead_eq_error_of_small hl hp hb
    obtain ⟨wo, hwo, ho'⟩ := iho hp
    obtain ⟨inner', q', rfl, hi, -⟩ := Walked.small_eq_failed ho'
    refine ⟨_, .branchFailed hb' ((Miss.isSoft_eq hm).trans hsoft) ho hwo ?_, ho'⟩
    rwa [Miss.isSoft_eq hi, Miss.index_eq hi, Progress.pos_eq hp]
  | passed hb hsoft ho _ hi hx hr _ iho ihn =>
    obtain ⟨miss', hb', hm⟩ := Line.bindHead_eq_error_of_small hl hp hb
    obtain ⟨wo, hwo, ho'⟩ := iho hp
    obtain ⟨inner', q', rfl, hi', -⟩ := Walked.small_eq_failed ho'
    obtain ⟨w', hw', hw⟩ := ihn hp
    have hsoft' := (Miss.isSoft_eq hi').trans hi
    have hindex : inner'.index ≤ p'.pos := by rwa [Miss.index_eq hi', Progress.pos_eq hp]
    exact ⟨w', .passed hb' ((Miss.isSoft_eq hm).trans hsoft) ho hwo hsoft' hindex hr hw', hw⟩
  | noneLeft hb hsoft ho _ hi hx hr iho =>
    obtain ⟨miss', hb', hm⟩ := Line.bindHead_eq_error_of_small hl hp hb
    obtain ⟨wo, hwo, ho'⟩ := iho hp
    obtain ⟨inner', q', rfl, hi', -⟩ := Walked.small_eq_failed ho'
    have hsoft' := (Miss.isSoft_eq hi').trans hi
    have hindex : inner'.index ≤ p'.pos := by rwa [Miss.index_eq hi', Progress.pos_eq hp]
    refine ⟨_, .noneLeft hb' ((Miss.isSoft_eq hm).trans hsoft) ho hwo hsoft' hindex hr, ?_⟩
    simp only [Walked.small, Line.place_noAlternative hl hp, hp]

theorem Node.walk_of_small {p p' : Progress} (n : Node) (slot : Nat) (hl : l'.small = l.small)
    (hp : p'.small = p.small) : (n.walk l' slot p').small = (n.walk l slot p).small := by
  obtain ⟨w', hw', hw⟩ := (n.walks_singleton l slot p).of_small hl hp
  rw [← walkAll_singleton, hw'.walkAll_eq, hw]

namespace Flags

variable {arbitrary : Bool} {candidates : List (Node × Nat)} {f f' f₀ f₀' g : Flags}
  {t u : Token} {miss : Miss} {q : Progress}

def small (f : Flags) : Flags :=
  { f with progress := f.progress.small, extra := f.extra.map Token.small }

theorem progress_eq (h : f'.small = f.small) : f'.progress.small = f.progress.small := by
  have hprogress : f'.small.progress = f.small.progress := congrArg Flags.progress h
  exact hprogress

theorem used_eq (h : f'.small = f.small) : f'.used = f.used := by
  have hused : f'.small.used = f.small.used := congrArg Flags.used h
  exact hused

theorem groups_eq (h : f'.small = f.small) : f'.groups = f.groups := by
  have hgroups : f'.small.groups = f.small.groups := congrArg Flags.groups h
  exact hgroups

theorem extra_eq (h : f'.small = f.small) :
    f'.extra.map Token.small = f.extra.map Token.small := by
  have hextra : f'.small.extra = f.small.extra := congrArg Flags.extra h
  exact hextra

theorem pass_small (hf : f'.small = f.small) (ht : u.small = t.small) :
    (f'.pass u).small = (f.pass t).small := by
  have hprogress := progress_eq hf
  simp only [Progress.small, Progress.mk.injEq] at hprogress
  simp only [pass, small, Progress.small, List.map_append, List.map_cons, List.map_nil,
    used_eq hf, groups_eq hf, extra_eq hf, ht, hprogress]

theorem take_small (hf : f'.small = f.small) {p p' : Progress} (hp : p'.small = p.small)
    (s : Slot) (slot : Nat) : (f'.take s slot p').small = (f.take s slot p).small := by
  simp only [take, small, used_eq hf, groups_eq hf, extra_eq hf, hp]

theorem next?_eq (hf : f'.small = f.small) (ht : u.small = t.small) :
    next? candidates f' u = next? candidates f t := by
  simp only [next?, Slot.fits_eq ht, used_eq hf]

theorem rival?_eq (hf : f'.small = f.small) (s : Slot) : f'.rival? s = f.rival? s := by
  simp only [rival?, groups_eq hf]

theorem Steps.of_small (hl : l'.small = l.small) (hf : f'.small = f.small)
    (ht : u.small = t.small) (h : Steps l arbitrary candidates f t g) :
    ∃ g', Steps l' arbitrary candidates f' u g' ∧ g'.small = g.small := by
  cases h with
  | pass hnone ha =>
    have hnone' : ∀ c ∈ candidates, c.1.slot.fits u = false :=
      fun c hc => (Slot.fits_eq ht).trans (hnone c hc)
    exact ⟨_, .pass hnone' ha, pass_small hf ht⟩
  | @take c p hc hrival hp =>
    have hwalk := c.1.walk_of_small c.2 hl (progress_eq hf)
    rw [hp] at hwalk
    obtain ⟨p', hp', hsmall⟩ := Walked.small_eq_done hwalk
    exact ⟨_, .take ((next?_eq hf ht).trans hc) ((rival?_eq hf _).trans hrival) hp',
      take_small hf hsmall _ _⟩

theorem Halts.of_small (hl : l'.small = l.small) (hf : f'.small = f.small)
    (ht : u.small = t.small) (h : Halts l arbitrary candidates f t miss q) :
    ∃ miss' q', Halts l' arbitrary candidates f' u miss' q' ∧ miss'.place = miss.place := by
  have hpos : f'.progress.pos = f.progress.pos := Progress.pos_eq (progress_eq hf)
  have hfits : ∀ c : Node × Nat, c.1.slot.fits u = c.1.slot.fits t := fun c => Slot.fits_eq ht
  cases h with
  | unknown hnone ha =>
    have hnone' : ∀ c ∈ candidates, c.1.slot.fits u = false :=
      fun c hc => (hfits c).trans (hnone c hc)
    refine ⟨_, _, .unknown hnone' ha, ?_⟩
    rw [hpos]
    exact Line.place_missAt hl rfl
  | repeated hfirst hnone =>
    refine ⟨_, _, .repeated (by simpa only [hfits] using hfirst) ((next?_eq hf ht).trans hnone), ?_⟩
    rw [hpos]
    exact Line.place_missAt hl rfl
  | conflicting hc hrival =>
    refine ⟨_, _, .conflicting ((next?_eq hf ht).trans hc) ((rival?_eq hf _).trans hrival), ?_⟩
    rw [hpos]
    exact Line.place_missAt hl rfl
  | @failed c miss q hc hrival hq =>
    have hwalk := c.1.walk_of_small c.2 hl (progress_eq hf)
    rw [hq] at hwalk
    obtain ⟨miss', q', hq', hplace, -⟩ := Walked.small_eq_failed hwalk
    exact ⟨miss', q', .failed ((next?_eq hf ht).trans hc) ((rival?_eq hf _).trans hrival) hq',
      hplace⟩

theorem Reaches.of_small (hl : l'.small = l.small) (h : Reaches l arbitrary candidates f₀ f) :
    ∃ f', Reaches l' arbitrary candidates f₀ f' ∧ f'.small = f.small := by
  induction h with
  | refl => exact ⟨f₀, .refl, rfl⟩
  | @tail f g t _ ht hstep ih =>
    obtain ⟨f', hreach, hf⟩ := ih
    obtain ⟨u, hu, hsmall⟩ := Line.exists_getElem? hl ht
    obtain ⟨g', hstep', hg⟩ := hstep.of_small hl hf hsmall
    have hpos := Progress.pos_eq (progress_eq hf)
    exact ⟨g', hreach.tail (by rwa [hpos]) hstep', hg⟩

end Flags

namespace Schema

variable {s : Schema} {values : List (Option Value)} {extra : List Token} {miss : Miss}
  {q : Progress}

theorem walk_eq_ok_of_small (hl : l'.small = l.small) (h : s.walk l = .ok (values, extra)) :
    ∃ values' extra', s.walk l' = .ok (values', extra') ∧
      values'.map (Option.map Value.small) = values.map (Option.map Value.small) ∧
      extra'.map Token.small = extra.map Token.small := by
  unfold walk at h ⊢
  split at h
  · rename_i hs
    obtain ⟨p, hp, rfl, rfl, ha⟩ := walkOrdered_eq_ok_iff.mp h
    obtain ⟨w', hw', hw⟩ := (walks_iff.mpr hp).of_small hl rfl
    obtain ⟨p', rfl, hsmall⟩ := Walked.small_eq_done hw
    have hrest : (l'.tokens.drop p'.pos).map Token.small =
        (l.tokens.drop p.pos).map Token.small := by
      rw [Progress.pos_eq hsmall]
      exact Line.drop_small hl p.pos
    refine ⟨_, _, ?_, congrArg Progress.values hsmall, hrest⟩
    rw [if_pos hs]
    refine walkOrdered_eq_ok_iff.mpr ⟨p', hw'.walkAll_eq, rfl, rfl, fun hne => ha fun hnil => ?_⟩
    rw [hnil] at hrest
    exact hne (by simpa using hrest)
  · rename_i hs
    obtain ⟨f, hf, hend, hmissing, rfl, rfl⟩ := walkFlags_eq_ok_iff.mp h
    obtain ⟨f', hf', hsmall⟩ := Flags.Reaches.of_small hl hf
    have hprogress := Flags.progress_eq hsmall
    have hend' : l'.tokens.length ≤ f'.progress.pos := by
      rwa [Line.length_tokens_eq hl, Progress.pos_eq hprogress]
    have hmissing' : Flags.missing s.flags f' = [] := by
      rwa [Flags.missing, Flags.used_eq hsmall]
    refine ⟨_, _, ?_, congrArg Progress.values hprogress, Flags.extra_eq hsmall⟩
    rw [if_neg hs]
    exact walkFlags_eq_ok_iff.mpr ⟨f', hf', hend', hmissing', rfl, rfl⟩

theorem Stops.of_small (hl : l'.small = l.small) (h : s.Stops l miss q) :
    ∃ miss' q', s.Stops l' miss' q' ∧ miss'.place = miss.place := by
  cases h with
  | node hs hq =>
    obtain ⟨w', hw', hw⟩ := (walks_iff.mpr hq).of_small hl rfl
    obtain ⟨miss', q', rfl, hplace, -⟩ := Walked.small_eq_failed hw
    exact ⟨miss', q', .node hs hw'.walkAll_eq, hplace⟩
  | @trailing t ts q hs hq hrest ha =>
    obtain ⟨w', hw', hw⟩ := (walks_iff.mpr hq).of_small hl rfl
    obtain ⟨q', rfl, hsmall⟩ := Walked.small_eq_done hw
    have hpos := Progress.pos_eq hsmall
    have hdrop : (l'.tokens.drop q'.pos).map Token.small = (t :: ts).map Token.small := by
      rw [hpos, ← hrest]
      exact Line.drop_small hl q.pos
    have hspan := spanOf?_eq hdrop
    obtain ⟨u, us, hrest', -, -⟩ := List.map_eq_cons_iff.mp hdrop
    rw [hrest'] at hspan
    refine ⟨_, q', .trailing hs hw'.walkAll_eq hrest' ha, ?_⟩
    rw [Miss.place, Miss.place, hspan, hpos]
    rfl
  | @flag f t miss q hs hf ht hq =>
    obtain ⟨f', hf', hsmall⟩ := Flags.Reaches.of_small hl hf
    obtain ⟨u, hu, hut⟩ := Line.exists_getElem? hl ht
    obtain ⟨miss', q', hq', hplace⟩ := hq.of_small hl hsmall hut
    have hpos := Progress.pos_eq (Flags.progress_eq hsmall)
    exact ⟨miss', q', .flag hs hf' (by rwa [hpos]) hq', hplace⟩
  | @missing f hs hf hend hmissing =>
    obtain ⟨f', hf', hsmall⟩ := Flags.Reaches.of_small hl hf
    have hpos := Progress.pos_eq (Flags.progress_eq hsmall)
    have hlabels : Flags.missing s.flags f' = Flags.missing s.flags f := by
      rw [Flags.missing, Flags.used_eq hsmall, Flags.missing]
    have hend' : l'.tokens.length ≤ f'.progress.pos := by rwa [Line.length_tokens_eq hl, hpos]
    refine ⟨_, _, .missing hs hf' hend' (by rwa [hlabels]), ?_⟩
    rw [hpos]
    exact Line.place_missAt hl rfl

theorem walk_eq_error_of_small (hl : l'.small = l.small) (h : s.walk l = .error miss) :
    ∃ miss', s.walk l' = .error miss' ∧ miss'.place = miss.place := by
  obtain ⟨q, hq⟩ := walk_eq_error_iff.mp h
  obtain ⟨miss', q', hq', hplace⟩ := hq.of_small hl
  exact ⟨miss', walk_eq_error_iff.mpr ⟨q', hq'⟩, hplace⟩

/-- The verdict on a line, or what is wrong and where without its words. -/
def judged (s : Schema) (l : Line) : Except (RefusalKind × Option Span) Verdict :=
  match s.judge l with
  | .ok v => .ok v.small
  | .error (m, span) => .error (m.kind, span)

theorem offTokens_small (tokens : List Token) :
    offTokens (tokens.map Token.small) = (offTokens tokens).map Token.small := by
  have hkeyword : (fun t => t.isKeyword offKeyword) ∘ Token.small =
      fun t => t.isKeyword offKeyword := funext fun t => t.isKeyword_small offKeyword
  rw [offTokens, List.filter_map, hkeyword]
  rfl

theorem judged_eq (hne : l.tokens ≠ []) (hoff : s.hasOff = true → offTokens l.tokens = []) :
    s.judged l = match s.walk l with
      | .ok (values, extra) => .ok (Verdict.bound values extra).small
      | .error miss => .error (miss.mismatch.kind, miss.span) := by
  rw [judged, judge_eq hne hoff]
  cases s.walk l <;> rfl

theorem judged_off {t : Token} (hs : s.hasOff = true) (ht : (offTokens l.tokens).head? = some t) :
    s.judged l =
      if l.tokens.length = 1 then .ok .off else .error (.offMustBeAlone, some t.span) := by
  have hne : ¬ l.tokens.isEmpty = true := by
    intro h
    rw [List.isEmpty_iff.mp h] at ht
    simp [offTokens] at ht
  unfold judged judge
  simp only [if_neg hne, if_pos hs, ht]
  by_cases hone : l.tokens.length = 1
  · rw [if_pos hone, if_pos hone]
    rfl
  · rw [if_neg hone, if_neg hone]
    rfl

theorem judged_small (hl : l'.small = l.small) : s.judged l' = s.judged l := by
  have htokens : l'.tokens.map Token.small = l.tokens.map Token.small := congrArg Line.tokens hl
  have hoff : (offTokens l'.tokens).map Token.small = (offTokens l.tokens).map Token.small := by
    rw [← offTokens_small, ← offTokens_small, htokens]
  by_cases hne : l.tokens = []
  · have hne' : l'.tokens = [] := by simpa [hne] using htokens
    simp only [judged, judge, hne, hne', Line.endSpan?_eq hl, List.isEmpty_nil, if_true]
  · have hne' : l'.tokens ≠ [] := by
      rintro hnil
      simp [hnil] at htokens
      exact hne htokens
    by_cases hfree : s.hasOff = true → offTokens l.tokens = []
    · have hfree' : s.hasOff = true → offTokens l'.tokens = [] := by
        intro hs
        simpa [hfree hs] using hoff
      rw [judged_eq hne' hfree', judged_eq hne hfree]
      cases hw : s.walk l with
      | ok r =>
        obtain ⟨values, extra, hw', hvalues, hextra⟩ := walk_eq_ok_of_small hl hw
        simp only [hw', Verdict.small, hvalues, hextra]
      | error miss =>
        obtain ⟨miss', hw', hplace⟩ := walk_eq_error_of_small hl hw
        have hkind : miss'.mismatch.kind = miss.mismatch.kind := congrArg Prod.fst hplace
        have hspan : miss'.span = miss.span := congrArg (·.2.2) hplace
        simp only [hw', hkind, hspan]
    · obtain ⟨hs, hsome⟩ := Classical.not_imp.mp hfree
      obtain ⟨t, ts, ht⟩ := List.exists_cons_of_ne_nil hsome
      rw [ht] at hoff
      obtain ⟨u, us, hu, hut, -⟩ := List.map_eq_cons_iff.mp hoff
      rw [judged_off hs (congrArg List.head? hu), judged_off hs (congrArg List.head? ht),
        Line.length_tokens_eq hl, Token.span_eq hut]

theorem matchTokens_small (s : Schema) (tokens : List Token) (name : Option Token) :
    (s.matchTokens tokens name).small =
      match s.judged (s.line tokens name) with
      | .ok v => ⟨s.name, v, (s.line tokens name).fullSpan?, some s⟩
      | .error (kind, span) => ⟨s.name, .refused ⟨kind, "", span⟩, span, some s⟩ := by
  unfold matchTokens judged
  dsimp only
  cases s.judge (s.line tokens name) <;> rfl

theorem matchTokens_small_eq {tokens tokens' : List Token} {name : Option Token}
    (h : tokens'.map Token.small = tokens.map Token.small) :
    (s.matchTokens tokens' name).small = (s.matchTokens tokens name).small := by
  have hl : (s.line tokens' name).small = (s.line tokens name).small := by
    rw [line, line, Line.small, Line.small, h]
  rw [matchTokens_small, matchTokens_small, judged_small hl, Line.fullSpan?_eq hl]

end Schema

namespace Match

variable {m m' : Match}

theorem succeeded_small (m : Match) : m.small.succeeded = m.succeeded := by
  cases hv : m.verdict <;> simp [succeeded, small, Verdict.small, hv]

theorem isOff_small (m : Match) : m.small.isOff = m.isOff := by
  cases hv : m.verdict <;> simp [isOff, small, Verdict.small, hv]

theorem refusal?_small (m : Match) :
    m.small.refusal? = m.refusal?.map fun r => { r with message := "" } := by
  cases hv : m.verdict <;> simp [refusal?, small, Verdict.small, hv]

theorem values_small (m : Match) : m.small.values = m.values.map (Option.map Value.small) := by
  cases hv : m.verdict <;> simp [values, small, Verdict.small, hv]

theorem extra_small (m : Match) : m.small.extra = m.extra.map Token.small := by
  cases hv : m.verdict <;> simp [extra, small, Verdict.small, hv]

end Match

/-- Two tokens of one kind at one place that differ in the case of ASCII letters only. -/
structure Token.SameLetters (t u : Token) : Prop where
  kind : t.kind = u.kind
  span : t.span = u.span
  text : t.text.toLower = u.text.toLower

theorem Token.small_eq_iff {t u : Token} : t.small = u.small ↔ t.SameLetters u := by
  constructor
  · intro h
    obtain ⟨hkind, htext, hspan⟩ := Token.mk.inj h
    exact ⟨hkind, hspan, htext⟩
  · rintro ⟨hkind, hspan, htext⟩
    rw [small, small, hkind, hspan, htext]

theorem Token.map_small_eq_iff {ts us : List Token} :
    ts.map Token.small = us.map Token.small ↔ List.Forall₂ Token.SameLetters ts us := by
  have hrel : (fun t u : Token => t.small = u.small) = Token.SameLetters := by
    funext t u
    exact propext Token.small_eq_iff
  rw [← hrel, ← List.forall₂_eq_eq_eq, List.forall₂_map_left_iff, List.forall₂_map_right_iff]

/-- A slot for any word, which is kept as it was written. -/
def Slot.IsFree (s : Slot) : Prop := s.text = none ∧ s.kind = .string ∧ s.choices = none

theorem Slot.Conforms.word_of_isFree {s : Slot} {tokens : List Token} {v : Value}
    (h : s.Conforms tokens v) (hs : s.IsFree) : ∃ x, v = .word x := by
  obtain ⟨htext, hkind, hchoices⟩ := hs
  cases h with
  | keyword ht => simp [htext] at ht
  | number _ hk => simp [hkind] at hk
  | choice => exact ⟨_, rfl⟩
  | free => exact ⟨_, rfl⟩

theorem Slot.Conforms.settled {s : Slot} {tokens : List Token} {v : Value}
    (h : s.Conforms tokens v) (hs : ¬ s.IsFree) :
    (∃ text, s.text = some text ∧ v = .word text) ∨ s.text = none ∧ v.small = v := by
  cases h with
  | keyword ht => exact .inl ⟨_, ht, rfl⟩
  | number ht _ _ _ _ _ _ hkeeps =>
    refine .inr ⟨ht, ?_⟩
    unfold Keeps at hkeeps
    split at hkeeps
    · obtain ⟨-, n, -, rfl⟩ := hkeeps
      rfl
    · rw [hkeeps]
      rfl
  | choice ht => exact .inr ⟨ht, congrArg Value.word (toLower_lower _)⟩
  | free ht hk hc => exact absurd ⟨ht, hk, hc⟩ hs

/-- Keywords, numbers and choices are bound to the same value whatever letters they are written
in. -/
theorem Slot.Conforms.eq_or_free {s : Slot} {tokens tokens' : List Token} {v w : Value}
    (hv : s.Conforms tokens v) (hw : s.Conforms tokens' w) (h : v.small = w.small) :
    v = w ∨ s.IsFree ∧ ∃ x y, v = .word x ∧ w = .word y ∧ x.toLower = y.toLower := by
  by_cases hs : s.IsFree
  · obtain ⟨x, rfl⟩ := hv.word_of_isFree hs
    obtain ⟨y, rfl⟩ := hw.word_of_isFree hs
    exact .inr ⟨hs, x, y, rfl, rfl, Value.word.inj h⟩
  · refine .inl ?_
    rcases hv.settled hs with ⟨text, ht, rfl⟩ | ⟨hnone, hsmall⟩
    · rcases hw.settled hs with ⟨text', ht', rfl⟩ | ⟨hnone', -⟩
      · rw [Option.some.inj (ht.symm.trans ht')]
      · simp [ht] at hnone'
    · rcases hw.settled hs with ⟨text', ht', -⟩ | ⟨-, hsmall'⟩
      · simp [hnone] at ht'
      · rw [← hsmall, h, hsmall']

namespace Schema

variable {s : Schema} {tokens tokens' : List Token} {name : Option Token} {i : Nat}

theorem conforms_of_values {v : Value}
    (h : (s.matchTokens tokens name).values[i]? = some (some v)) :
    ∃ slot, s.slots[i]? = some slot ∧ slot.Conforms tokens v := by
  cases hv : (s.matchTokens tokens name).verdict with
  | bound values extra =>
    rw [Match.values, hv] at h
    exact conforms_of_bound hv h
  | off => simp [Match.values, hv, List.getElem?_replicate] at h
  | refused r => simp [Match.values, hv] at h

theorem getElem?_values_of_small {slot : Slot}
    (h : (s.matchTokens tokens name).values.map (Option.map Value.small) =
      (s.matchTokens tokens' name).values.map (Option.map Value.small))
    (hslot : s.slots[i]? = some slot) :
    (s.matchTokens tokens name).values[i]? = (s.matchTokens tokens' name).values[i]? ∨
      slot.IsFree ∧ ∃ x y, (s.matchTokens tokens name).values[i]? = some (some (.word x)) ∧
        (s.matchTokens tokens' name).values[i]? = some (some (.word y)) ∧
          x.toLower = y.toLower := by
  have hi : (s.matchTokens tokens name).values[i]?.map (Option.map Value.small) =
      (s.matchTokens tokens' name).values[i]?.map (Option.map Value.small) := by
    rw [← List.getElem?_map, h, List.getElem?_map]
  cases hv : (s.matchTokens tokens name).values[i]? with
  | none =>
    rw [hv] at hi
    exact .inl (Option.map_eq_none_iff.mp hi.symm).symm
  | some o =>
    rw [hv] at hi
    obtain ⟨o', hw, ho⟩ := Option.map_eq_some_iff.mp hi.symm
    rw [hw]
    cases o with
    | none => exact .inl (congrArg some (Option.map_eq_none_iff.mp ho).symm)
    | some v =>
      obtain ⟨w, rfl, hsmall⟩ := Option.map_eq_some_iff.mp ho
      obtain ⟨r, hr, hcv⟩ := conforms_of_values hv
      obtain ⟨r', hr', hcw⟩ := conforms_of_values hw
      obtain rfl := Option.some.inj (hr.symm.trans hslot)
      obtain rfl := Option.some.inj (hr'.symm.trans hslot)
      rcases hcv.eq_or_free hcw hsmall.symm with rfl | ⟨hfree, x, y, rfl, rfl, hxy⟩
      · exact .inl rfl
      · exact .inr ⟨hfree, x, y, rfl, rfl, hxy⟩

/-- Lines that differ in the case of ASCII letters are matched alike: accepted or refused for the
same reason at the same place, with the same values but for the letters of free words. -/
theorem match_ignores_case (s : Schema) (tokens tokens' : List Token) (name : Option Token)
    (h : List.Forall₂ Token.SameLetters tokens tokens') :
    let m := s.matchTokens tokens name
    let m' := s.matchTokens tokens' name
    m.succeeded = m'.succeeded ∧ m.isOff = m'.isOff ∧ m.span = m'.span ∧
      m.refusal?.map (fun r => (r.kind, r.span)) = m'.refusal?.map (fun r => (r.kind, r.span)) ∧
      m.values.length = m'.values.length ∧
      (∀ (i : Nat) (slot : Slot), s.slots[i]? = some slot →
        m.values[i]? = m'.values[i]? ∨
          slot.IsFree ∧ ∃ x y, m.values[i]? = some (some (.word x)) ∧
            m'.values[i]? = some (some (.word y)) ∧ x.toLower = y.toLower) ∧
      List.Forall₂ Token.SameLetters m.extra m'.extra := by
  intro m m'
  have hm : m.small = m'.small := matchTokens_small_eq (Token.map_small_eq_iff.mpr h)
  have hvalues :
      m.values.map (Option.map Value.small) = m'.values.map (Option.map Value.small) := by
    rw [← m.values_small, hm, m'.values_small]
  have hrefusal : m.refusal?.map (fun r => ({ r with message := "" } : Refusal)) =
      m'.refusal?.map fun r => { r with message := "" } := by
    rw [← m.refusal?_small, hm, m'.refusal?_small]
  refine ⟨?_, ?_, ?_, ?_, ?_, fun i slot hslot => ?_, ?_⟩
  · rw [← m.succeeded_small, hm, m'.succeeded_small]
  · rw [← m.isOff_small, hm, m'.isOff_small]
  · have hspan : m.small.span = m'.small.span := congrArg Match.span hm
    exact hspan
  · have hplace := congrArg (Option.map fun r : Refusal => (r.kind, r.span)) hrefusal
    rwa [Option.map_map, Option.map_map] at hplace
  · simpa using congrArg List.length hvalues
  · exact getElem?_values_of_small hvalues hslot
  · rw [← Token.map_small_eq_iff, ← m.extra_small, hm, m'.extra_small]

/-- A keyword, a name and an easing: only the name keeps its letters. -/
theorem match_ignores_case_entity :
    let tokens : List Token := [⟨.string, "ENT", ⟨1, 8, 11⟩⟩, ⟨.string, "Cave", ⟨1, 12, 16⟩⟩,
      ⟨.number, "20", ⟨1, 17, 19⟩⟩, ⟨.string, "sIne", ⟨1, 20, 24⟩⟩]
    let tokens' : List Token := [⟨.string, "Ent", ⟨1, 8, 11⟩⟩, ⟨.string, "cAVE", ⟨1, 12, 16⟩⟩,
      ⟨.number, "20", ⟨1, 17, 19⟩⟩, ⟨.string, "SINE", ⟨1, 20, 24⟩⟩]
    let m := Catalogue.autoaim.matchTokens tokens none
    let m' := Catalogue.autoaim.matchTokens tokens' none
    List.Forall₂ Token.SameLetters tokens tokens' ∧ m.succeeded = true ∧ m'.succeeded = true ∧
      m.values[1]? = some (some (.word "Cave")) ∧ m'.values[1]? = some (some (.word "cAVE")) ∧
      m.values[7]? = some (some (.word "sine")) ∧ m.values[7]? = m'.values[7]? := by
  intro tokens tokens' m m'
  have h : List.Forall₂ Token.SameLetters tokens tokens' :=
    .cons ⟨rfl, rfl, toLower_eq_of_small (by decide)⟩
      (.cons ⟨rfl, rfl, toLower_eq_of_small (by decide)⟩
        (.cons ⟨rfl, rfl, rfl⟩ (.cons ⟨rfl, rfl, toLower_eq_of_small (by decide)⟩ .nil)))
  obtain ⟨hok, -, -, -, -, hvalues, -⟩ := match_ignores_case Catalogue.autoaim tokens tokens' none h
  have hm : m.succeeded = true := by decide +kernel
  refine ⟨h, hm, hok ▸ hm, by decide +kernel, by decide +kernel, by decide +kernel, ?_⟩
  rcases hvalues 7 _ rfl with heq | ⟨hfree, -⟩
  · exact heq
  · exact absurd hfree.2.2 (by decide)

end Schema

end TasScript
