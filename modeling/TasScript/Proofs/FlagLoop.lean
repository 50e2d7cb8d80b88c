import TasScript.Proofs.Conformance

/-! The loop over flags that have no children. What it remembers of the tokens before is which flags
they fit, and that decides whether the next token may follow them. -/

namespace TasScript

namespace Slot

/-- The number is whole where it has to be, and within its bounds. -/
def Passes (s : Slot) (t : Token) : Prop :=
  s.text = none → s.kind = .number → ∀ x suffix, splitNumber? t.text = some (x, suffix) →
    (s.integer = true → isWhole x = true) ∧ s.InBounds x

theorem bind_of_fits {s : Slot} {t : Token} (hf : s.fits t = true) :
    (∃ v, s.bind t = .ok v) ↔ s.Passes t := by
  unfold fits at hf
  unfold bind Passes
  split at hf
  · rename_i text hx
    simp [hx, hf]
  · rename_i hx hk
    rw [Bool.and_eq_true] at hf
    obtain ⟨hn, hf⟩ := hf
    split at hf
    · rename_i x suffix hs
      simp only [hx, hk, bindNumber_eq hn hs hf, hs, Option.some.injEq, Prod.mk.injEq]
      constructor
      · rintro ⟨v, hv⟩ - - _ _ ⟨rfl, rfl⟩
        obtain ⟨hb, hkeeps⟩ := bindAmount_eq_ok hv
        refine ⟨fun hi => ?_, hb⟩
        rw [Keeps, if_pos hi] at hkeeps
        exact hkeeps.1
      · intro h
        obtain ⟨hw, hb⟩ := h trivial trivial x suffix ⟨rfl, rfl⟩
        exact bindAmount_of_inBounds hw hb
    · simp at hf
  · rename_i hx hk
    rw [Bool.and_eq_true, Bool.not_eq_true'] at hf
    have hword : ∃ v, s.bindWord t = .ok v := by
      unfold bindWord
      rw [hf.1, if_neg Bool.false_ne_true]
      split
      · exact ⟨_, rfl⟩
      · rename_i choices hc
        have hmem : choices.contains (lower t.text) = true := by simpa [hc] using hf.2
        exact ⟨_, if_pos hmem⟩
    simp [hx, hk, hword]

end Slot

namespace Slot

/-- One of the tokens fits the slot. -/
def Given (s : Slot) (tokens : List Token) : Prop := ∃ t ∈ tokens, s.fits t = true

theorem given_concat {s : Slot} {tokens : List Token} {t : Token} :
    s.Given (tokens ++ [t]) ↔ s.Given tokens ∨ s.fits t = true := by
  simp [Given, or_and_right, exists_or]

end Slot

theorem Node.walk_childless {l : Line} {p : Progress} {t : Token} {n : Node} (slot : Nat)
    (hn : n.children = []) (ht : l.tokens[p.pos]? = some t) (hf : n.slot.fits t = true) :
    (∃ v, n.slot.bind t = .ok v ∧ n.walk l slot p = .done (p.bind slot v)) ∨
      ∃ m miss q, n.slot.bind t = .error m ∧ n.walk l slot p = .failed miss q := by
  obtain ⟨s, cs, os⟩ := n
  obtain rfl : cs = [] := hn
  rw [walk]
  cases hb : s.bind t with
  | ok v =>
    refine .inl ⟨v, hb, ?_⟩
    simp [Line.bindHead, ht, hb, walkAll]
  | error m =>
    have hsoft : m.isSoft = false := Slot.isSoft_of_fits hf hb
    refine .inr ⟨m, l.missAt p.pos m, p, hb, ?_⟩
    simp [Line.bindHead, ht, hb, Line.missAt, hsoft]

namespace Flags

variable {l : Line} {arbitrary : Bool} {candidates : List (Node × Nat)} {past : List Token}
  {f f' : Flags} {t : Token} {c : Node × Nat}

/-- What is known after the tokens in `past`: the flags they give, and the groups of these. -/
structure Remembers (candidates : List (Node × Nat)) (past : List Token) (f : Flags) : Prop where
  pos : f.progress.pos = past.length
  used : ∀ c ∈ candidates, c.2 ∈ f.used ↔ c.1.slot.Given past
  groups : ∀ g, (f.groups.lookup g).isSome = true ↔
    ∃ c ∈ candidates, c.1.slot.group = some g ∧ c.1.slot.Given past

/-- Whether `t` may follow the tokens in `past`. -/
structure Admits (arbitrary : Bool) (candidates : List (Node × Nat)) (past : List Token)
    (t : Token) : Prop where
  fresh : ∀ c ∈ candidates, c.1.slot.fits t = true → ¬ c.1.slot.Given past
  apart : ∀ c ∈ candidates, ∀ d ∈ candidates, c ≠ d → c.1.slot.fits t = true →
    d.1.slot.Given past → ∀ g, c.1.slot.group = some g → d.1.slot.group ≠ some g
  passes : ∀ c ∈ candidates, c.1.slot.fits t = true → c.1.slot.Passes t
  known : arbitrary = true ∨ ∃ c ∈ candidates, c.1.slot.fits t = true

theorem step_of_unfit (h : ∀ c ∈ candidates, c.1.slot.fits t = false) :
    step l arbitrary candidates f t =
      if arbitrary then .ok (f.pass t)
      else .error (l.missAt f.progress.pos (.unknown t.text l.tool)) := by
  rw [step_eq, find?_fits_eq_none.mpr h]

/-- A token that fits one flag only is taken by this flag or refused on its account. -/
theorem step_of_fits (hc : c ∈ candidates) (hf : c.1.slot.fits t = true)
    (hone : ∀ d ∈ candidates, d.1.slot.fits t = true → d = c) :
    step l arbitrary candidates f t =
      if c.2 ∈ f.used then .error (l.missAt f.progress.pos (.repeated c.1.slot.label))
      else
        match f.rival? c.1.slot with
        | some other =>
          .error (l.missAt f.progress.pos (.conflicting c.1.slot.label other))
        | none =>
          match c.1.walk l c.2 f.progress with
          | .done p => .ok (f.take c.1.slot c.2 p)
          | .failed miss _ => .error miss := by
  have hfirst : candidates.find? (fun d => d.1.slot.fits t) = some c := by
    cases hfind : candidates.find? fun d => d.1.slot.fits t with
    | none => simp [find?_fits_eq_none.mp hfind c hc] at hf
    | some d =>
      have hfit : d.1.slot.fits t = true := by simpa using List.find?_some hfind
      rw [hone d (List.mem_of_find?_eq_some hfind) hfit]
  -- whatever fits the token is `c`, so the first fresh flag is `c` or there is none
  by_cases hused : c.2 ∈ f.used
  · have hnext : next? candidates f t = none := by
      apply next?_eq_none.mpr
      intro d hd hfit
      rwa [hone d hd hfit]
    rw [step_eq, hfirst, hnext]
    exact (if_pos hused).symm
  · have hnext : next? candidates f t = some c := by
      cases hfind : next? candidates f t with
      | none => exact absurd (next?_eq_none.mp hfind c hc hf) hused
      | some d =>
        obtain ⟨hd, hfit, -⟩ := fits_of_next? hfind
        rw [hone d hd hfit]
    rw [step_eq, hfirst, hnext]
    exact (if_neg hused).symm

/-- No token fits two flags, and no two flags have one number. -/
structure Apart (candidates : List (Node × Nat)) (tokens : List Token) : Prop where
  tokens : ∀ t ∈ tokens, ∀ c ∈ candidates, ∀ d ∈ candidates, c.1.slot.fits t = true →
    d.1.slot.fits t = true → c = d
  slots : ∀ c ∈ candidates, ∀ d ∈ candidates, c.2 = d.2 → c = d

theorem Apart.fits_cases {tokens : List Token} (ha : Apart candidates tokens) (ht : t ∈ tokens) :
    (∀ c ∈ candidates, c.1.slot.fits t = false) ∨
      ∃ c ∈ candidates, c.1.slot.fits t = true ∧
        ∀ d ∈ candidates, d.1.slot.fits t = true → d = c := by
  cases hfind : candidates.find? fun c => c.1.slot.fits t with
  | none =>
    refine .inl fun c hc => ?_
    simpa using List.find?_eq_none.mp hfind c hc
  | some c =>
    have hc : c ∈ candidates := List.mem_of_find?_eq_some hfind
    have hf : c.1.slot.fits t = true := by simpa using List.find?_some hfind
    exact .inr ⟨c, hc, hf, fun d hd hd' => ha.tokens t ht d hd c hc hd' hf⟩

theorem Remembers.rival?_eq_none (hr : Remembers candidates past f)
    (hfresh : ¬ c.1.slot.Given past) :
    f.rival? c.1.slot = none ↔ ∀ d ∈ candidates, c ≠ d → d.1.slot.Given past →
      ∀ g, c.1.slot.group = some g → d.1.slot.group ≠ some g := by
  rw [← Option.not_isSome_iff_eq_none, rival?_isSome]
  constructor
  · intro h d hd _ hgiven g hg hdg
    exact h ⟨g, hg, (hr.groups g).mpr ⟨d, hd, hdg, hgiven⟩⟩
  · rintro h ⟨g, hg, htaken⟩
    obtain ⟨d, hd, hdg, hgiven⟩ := (hr.groups g).mp htaken
    have hne : c ≠ d := fun hcd => hfresh (hcd ▸ hgiven)
    exact h d hd hne hgiven g hg hdg

theorem Remembers.pass (hr : Remembers candidates past f)
    (h : ∀ c ∈ candidates, c.1.slot.fits t = false) :
    Remembers candidates (past ++ [t]) (f.pass t) where
  pos := by simp [Flags.pass, hr.pos]
  used := by
    intro c hc
    rw [show (f.pass t).used = f.used from rfl, hr.used c hc]
    simp [Slot.given_concat, h c hc]
  groups := by
    intro g
    rw [show (f.pass t).groups = f.groups from rfl, hr.groups g]
    apply exists_congr
    intro c
    apply and_congr_right
    intro hc
    simp [Slot.given_concat, h c hc]

theorem Remembers.take (hr : Remembers candidates past f) (hc : c ∈ candidates)
    (hf : c.1.slot.fits t = true) (hone : ∀ d ∈ candidates, d.1.slot.fits t = true → d = c)
    (hslots : ∀ d ∈ candidates, d.2 = c.2 → d = c) (v : Value) :
    Remembers candidates (past ++ [t]) (f.take c.1.slot c.2 (f.progress.bind c.2 v)) where
  pos := by simp [Flags.take, Progress.bind, hr.pos]
  used := by
    intro d hd
    have hsame : d.2 = c.2 ↔ d.1.slot.fits t = true :=
      ⟨fun h => hslots d hd h ▸ hf, fun h => hone d hd h ▸ rfl⟩
    rw [show (f.take c.1.slot c.2 (f.progress.bind c.2 v)).used = c.2 :: f.used from rfl,
      List.mem_cons, hr.used d hd, Slot.given_concat, hsame, or_comm]
  groups := by
    intro g
    have hnew : (∃ d ∈ candidates, d.1.slot.group = some g ∧ d.1.slot.Given (past ++ [t])) ↔
        c.1.slot.group = some g ∨ (f.groups.lookup g).isSome = true := by
      rw [hr.groups g]
      constructor
      · rintro ⟨d, hd, hg, hgiven⟩
        rcases Slot.given_concat.mp hgiven with hpast | hfit
        · exact .inr ⟨d, hd, hg, hpast⟩
        · exact .inl (hone d hd hfit ▸ hg)
      · rintro (hg | ⟨d, hd, hg, hpast⟩)
        · exact ⟨c, hc, hg, Slot.given_concat.mpr (.inr hf)⟩
        · exact ⟨d, hd, hg, Slot.given_concat.mpr (.inl hpast)⟩
    rw [hnew, lookup_take]

theorem Remembers.step_of_admits (hr : Remembers candidates past f)
    (ha : Apart candidates (past ++ [t])) (hleaf : ∀ c ∈ candidates, c.1.children = [])
    (ht : l.tokens[past.length]? = some t) (h : Admits arbitrary candidates past t) :
    ∃ g, step l arbitrary candidates f t = .ok g ∧ Remembers candidates (past ++ [t]) g := by
  rw [← hr.pos] at ht
  rcases ha.fits_cases (t := t) (by simp) with hnone | ⟨c, hc, hf, hone⟩
  · have hunfit : ¬ ∃ c ∈ candidates, c.1.slot.fits t = true := by
      rintro ⟨c, hc, hf⟩
      simp [hnone c hc] at hf
    have harb : arbitrary = true := h.known.resolve_right hunfit
    exact ⟨_, by rw [step_of_unfit hnone, if_pos harb], hr.pass hnone⟩
  · have hfresh := h.fresh c hc hf
    have hused : c.2 ∉ f.used := fun hu => hfresh ((hr.used c hc).mp hu)
    have hrival : f.rival? c.1.slot = none := by
      apply (hr.rival?_eq_none hfresh).mpr
      intro d hd hne hgiven
      exact h.apart c hc d hd hne hf hgiven
    obtain ⟨v, hv⟩ := (Slot.bind_of_fits hf).mpr (h.passes c hc hf)
    rcases Node.walk_childless c.2 (hleaf c hc) ht hf with ⟨w, -, hw⟩ | ⟨m, _, _, hm, -⟩
    · refine ⟨_, ?_, hr.take hc hf hone (fun d hd hd' => ha.slots d hd c hc hd') w⟩
      rw [step_of_fits hc hf hone, if_neg hused, hrival, hw]
    · simp [hm] at hv

theorem Remembers.admits_of_step (hr : Remembers candidates past f)
    (ha : Apart candidates (past ++ [t])) (hleaf : ∀ c ∈ candidates, c.1.children = [])
    (ht : l.tokens[past.length]? = some t) (h : step l arbitrary candidates f t = .ok f') :
    Admits arbitrary candidates past t := by
  rw [← hr.pos] at ht
  rcases ha.fits_cases (t := t) (by simp) with hnone | ⟨c, hc, hf, hone⟩
  · rw [step_of_unfit hnone] at h
    split at h
    · rename_i harb
      have hunfit : ∀ c ∈ candidates, ¬ c.1.slot.fits t = true := by
        intro c hc
        simp [hnone c hc]
      refine ⟨?_, ?_, ?_, .inl harb⟩
      · exact fun c hc hf => absurd hf (hunfit c hc)
      · exact fun c hc _ _ _ hf => absurd hf (hunfit c hc)
      · exact fun c hc hf => absurd hf (hunfit c hc)
    · simp at h
  · rw [step_of_fits hc hf hone] at h
    by_cases hused : c.2 ∈ f.used
    · simp [hused] at h
    · have hfresh : ¬ c.1.slot.Given past := fun hg => hused ((hr.used c hc).mpr hg)
      rw [if_neg hused] at h
      split at h
      · simp at h
      · rename_i hrival
        rcases Node.walk_childless c.2 (hleaf c hc) ht hf with ⟨v, hv, -⟩ | ⟨_, _, _, -, hw⟩
        · refine ⟨?_, ?_, ?_, .inr ⟨c, hc, hf⟩⟩
          · rintro d hd hd'
            rwa [hone d hd hd']
          · rintro d hd e he hne hd' hgiven
            obtain rfl := hone d hd hd'
            exact (hr.rival?_eq_none hfresh).mp hrival e he hne hgiven
          · rintro d hd hd'
            rw [hone d hd hd']
            exact (Slot.bind_of_fits hf).mp ⟨v, hv⟩
        · simp [hw] at h

/-- Tokens that may stand behind one another in any order. -/
structure Fair (arbitrary : Bool) (candidates : List (Node × Nat)) (tokens : List Token) :
    Prop where
  once : tokens.Pairwise fun t u => ∀ c ∈ candidates,
    ¬ (c.1.slot.fits t = true ∧ c.1.slot.fits u = true)
  apart : tokens.Pairwise fun t u => ∀ c ∈ candidates, ∀ d ∈ candidates, c ≠ d →
    c.1.slot.fits t = true → d.1.slot.fits u = true →
    ∀ g, c.1.slot.group = some g → d.1.slot.group ≠ some g
  passes : ∀ t ∈ tokens, ∀ c ∈ candidates, c.1.slot.fits t = true → c.1.slot.Passes t
  known : arbitrary = true ∨ ∀ t ∈ tokens, ∃ c ∈ candidates, c.1.slot.fits t = true

theorem fair_nil : Fair arbitrary candidates [] :=
  ⟨.nil, .nil, by simp, .inr (by simp)⟩

theorem Fair.of_append {rest : List Token} (h : Fair arbitrary candidates (past ++ rest)) :
    Fair arbitrary candidates past where
  once := (List.pairwise_append.mp h.once).1
  apart := (List.pairwise_append.mp h.apart).1
  passes := fun t ht => h.passes t (List.mem_append_left _ ht)
  known := h.known.imp_right fun hk t ht => hk t (List.mem_append_left _ ht)

theorem Fair.admits (h : Fair arbitrary candidates (past ++ [t])) :
    Admits arbitrary candidates past t where
  fresh := by
    rintro c hc hf ⟨u, hu, hu'⟩
    exact (List.pairwise_append.mp h.once).2.2 u hu t List.mem_cons_self c hc ⟨hu', hf⟩
  apart := by
    rintro c hc d hd hne hf ⟨u, hu, hu'⟩ g hg hdg
    have hrel := (List.pairwise_append.mp h.apart).2.2 u hu t List.mem_cons_self
    exact hrel d hd c hc (Ne.symm hne) hu' hf g hdg hg
  passes := h.passes t (by simp)
  known := h.known.imp_right fun hk => hk t (by simp)

theorem Fair.concat (h : Fair arbitrary candidates past) (ht : Admits arbitrary candidates past t) :
    Fair arbitrary candidates (past ++ [t]) where
  once := by
    refine List.pairwise_append.mpr ⟨h.once, List.pairwise_singleton _ _, ?_⟩
    rintro u hu w hw c hc ⟨hu', hf⟩
    obtain rfl := List.mem_singleton.mp hw
    exact ht.fresh c hc hf ⟨u, hu, hu'⟩
  apart := by
    refine List.pairwise_append.mpr ⟨h.apart, List.pairwise_singleton _ _, ?_⟩
    rintro u hu w hw c hc d hd hne hu' hf g hg hdg
    obtain rfl := List.mem_singleton.mp hw
    exact ht.apart d hd c hc (Ne.symm hne) hf ⟨u, hu, hu'⟩ g hdg hg
  passes := by
    intro u hu
    rcases List.mem_append.mp hu with hu | hu
    · exact h.passes u hu
    · obtain rfl := List.mem_singleton.mp hu
      exact ht.passes
  known := by
    rcases h.known with harb | hk
    · exact .inl harb
    · refine ht.known.imp_right fun hfit u hu => ?_
      rcases List.mem_append.mp hu with hu | hu
      · exact hk u hu
      · obtain rfl := List.mem_singleton.mp hu
        exact hfit

section

variable {rest : List Token} {steps : Nat}

theorem Apart.concat (ha : Apart candidates l.tokens) (hl : l.tokens = past ++ t :: rest) :
    Apart candidates (past ++ [t]) := by
  refine ⟨fun u hu => ha.tokens u ?_, ha.slots⟩
  rw [hl]
  rcases List.mem_append.mp hu with hu | hu
  · exact List.mem_append_left _ hu
  · obtain rfl := List.mem_singleton.mp hu
    simp

theorem Remembers.gather_of_fair (hr : Remembers candidates past f)
    (ha : Apart candidates l.tokens) (hleaf : ∀ c ∈ candidates, c.1.children = [])
    (hl : l.tokens = past ++ rest) (hn : rest.length ≤ steps)
    (h : Fair arbitrary candidates l.tokens) :
    ∃ g, gather l arbitrary candidates steps f = .ok g ∧ Remembers candidates l.tokens g := by
  -- on the tokens that are left; the steps only have to be as many
  induction rest generalizing past f steps with
  | nil =>
    rw [List.append_nil] at hl
    have hend : l.tokens[f.progress.pos]? = none := by
      rw [hr.pos, hl]
      simp
    refine ⟨f, ?_, hl ▸ hr⟩
    cases steps with
    | zero => rfl
    | succ steps => rw [gather, hend]
  | cons t rest ih =>
    cases steps with
    | zero => simp at hn
    | succ steps =>
      have ht : l.tokens[past.length]? = some t := by simp [hl]
      have hsplit : l.tokens = (past ++ [t]) ++ rest := by simp [hl]
      have hadmits := (hsplit ▸ h).of_append.admits
      obtain ⟨g, hg, hr'⟩ := hr.step_of_admits (ha.concat hl) hleaf ht hadmits
      rw [gather, hr.pos, ht]
      dsimp only
      rw [hg]
      exact ih hr' hsplit (by simpa using hn)

theorem Remembers.fair_of_gather (hr : Remembers candidates past f)
    (ha : Apart candidates l.tokens) (hleaf : ∀ c ∈ candidates, c.1.children = [])
    (hl : l.tokens = past ++ rest) (hn : rest.length ≤ steps)
    (hpast : Fair arbitrary candidates past)
    (h : gather l arbitrary candidates steps f = .ok f') :
    Fair arbitrary candidates l.tokens := by
  induction rest generalizing past f steps with
  | nil =>
    rw [hl, List.append_nil]
    exact hpast
  | cons t rest ih =>
    cases steps with
    | zero => simp at hn
    | succ steps =>
      have ht : l.tokens[past.length]? = some t := by simp [hl]
      have hsplit : l.tokens = (past ++ [t]) ++ rest := by simp [hl]
      rw [gather, hr.pos, ht] at h
      dsimp only at h
      split at h
      · rename_i g hg
        have hadmits := hr.admits_of_step (ha.concat hl) hleaf ht hg
        obtain ⟨g', hg', hr'⟩ := hr.step_of_admits (ha.concat hl) hleaf ht hadmits
        obtain rfl := Except.ok.inj (hg.symm.trans hg')
        exact ih hr' hsplit (by simpa using hn) (hpast.concat hadmits) h
      · simp at h

end

end Flags

end TasScript
