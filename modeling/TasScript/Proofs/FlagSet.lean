import TasScript.Proofs.Conservation
import TasScript.Proofs.FlagLoop

/-! Sets of flags. In a grammar of flags without children the order of the tokens counts for
nothing: what is accepted, and what every slot then holds, depends on which token fits which
flag. -/

namespace TasScript

open Node

namespace Schema

/-- No two tokens fit one flag or two flags of one group, no number is out of its range, no required
flag is missing, and no token is unknown unless the schema allows it. -/
structure FlagSet (s : Schema) (tokens : List Token) : Prop extends
    Flags.Fair s.allowArbitraryArguments s.flags tokens where
  required : ∀ c ∈ s.flags, c.1.slot.required = true → c.1.slot.Given tokens

structure FlagValues (s : Schema) (tokens : List Token) (values : List (Option Value))
    (extra : List Token) : Prop where
  length : values.length = s.slotCount
  given : ∀ c ∈ s.flags, ∀ t ∈ tokens, c.1.slot.fits t = true →
    ∃ v, values[c.2]? = some (some v) ∧ c.1.slot.Conforms [t] v
  absent : ∀ c ∈ s.flags, ¬ c.1.slot.Given tokens → values[c.2]? = some none
  others : ∀ i < s.slotCount, (∀ c ∈ s.flags, c.2 ≠ i) → values[i]? = some none
  extra : extra = tokens.filter fun t => s.flags.all fun c => !c.1.slot.fits t

section

variable {s : Schema} {l : Line}

theorem walkFlags_iff (hleaf : ∀ n ∈ s.arguments, n.children = [])
    (ha : Flags.Apart s.flags l.tokens) :
    (∃ r, s.walkFlags l = .ok r) ↔ s.FlagSet l.tokens := by
  have hchildless : ∀ c ∈ s.flags, c.1.children = [] := fun c hc => hleaf c.1 (mem_of_placed hc)
  have hstart : Flags.Remembers s.flags [] s.flagStart :=
    ⟨rfl, by simp [Slot.Given, flagStart], by simp [Slot.Given, flagStart]⟩
  have hall : l.tokens = [] ++ l.tokens := rfl
  -- the loop ends in a state that knows all tokens, and so which of the flags are missing
  simp only [walkFlags_eq]
  constructor
  · rintro ⟨r, hr⟩
    split at hr
    · simp at hr
    · rename_i f hf
      have hfair := hstart.fair_of_gather ha hchildless hall (Nat.le_refl _) Flags.fair_nil hf
      obtain ⟨g, hg, hend⟩ := hstart.gather_of_fair ha hchildless hall (Nat.le_refl _) hfair
      obtain rfl := Except.ok.inj (hf.symm.trans hg)
      split at hr
      · rename_i hmissing
        refine ⟨hfair, fun c hc hreq => ?_⟩
        exact (hend.used c hc).mp (Flags.missing_eq_nil.mp hmissing c hc hreq)
      · simp at hr
  · intro h
    obtain ⟨g, hg, hend⟩ := hstart.gather_of_fair ha hchildless hall (Nat.le_refl _) h.toFair
    have hmissing : Flags.missing s.flags g = [] := by
      apply Flags.missing_eq_nil.mpr
      intro c hc hreq
      exact (hend.used c hc).mpr (h.required c hc hreq)
    refine ⟨(g.progress.values, g.extra), ?_⟩
    rw [hg]
    dsimp only
    rw [hmissing]

end

section

variable {s : Schema} {tokens : List Token} {values : List (Option Value)} {extra : List Token}
  {g : Ledger}

section

variable (h : s.Accounts g tokens values extra) (hs : s.fixedOrder = false)
  (hleaf : ∀ n ∈ s.arguments, n.children = [])

include h hs hleaf

theorem Accounts.entry_cases {e : Entry} (he : e ∈ g) :
    (∃ t, e = .kept t ∧ ∀ c ∈ s.flags, c.1.slot.fits t = false) ∨
      ∃ c ∈ s.flags, ∃ t v, e = .bound t c.2 v ∧ c.1.slot.fits t = true ∧
        c.1.slot.bind t = .ok v := by
  have hchildless : ∀ c ∈ s.flags, c.1.children = [] := fun c hc => hleaf c.1 (mem_of_placed hc)
  cases h.parses with
  | ordered ts hf _ => simp [hs] at hf
  | flags _ hrun _ => exact hrun.entry_cases hchildless he

theorem Accounts.flag_of_bound {t : Token} {i : Nat} {v : Value} (he : .bound t i v ∈ g) :
    t ∈ tokens ∧ ∃ c ∈ s.flags, c.2 = i ∧ c.1.slot.fits t = true := by
  refine ⟨h.tokens_eq ▸ Ledger.token_mem_tokens he, ?_⟩
  rcases h.entry_cases hs hleaf he with ⟨u, hu, -⟩ | ⟨c, hc, u, w, hu, hf, -⟩
  · simp at hu
  · obtain ⟨rfl, rfl, rfl⟩ := Entry.bound.inj hu
    exact ⟨c, hc, rfl, hf⟩

theorem Accounts.empty_slot {i : Nat} (hi : i < s.slotCount)
    (hnone : ∀ c ∈ s.flags, c.2 = i → ¬ c.1.slot.Given tokens) : values[i]? = some none := by
  have hlength := h.length_values
  cases hv : values[i]? with
  | none =>
    have hout := List.getElem?_eq_none_iff.mp hv
    omega
  | some o =>
    cases o with
    | none => rfl
    | some v =>
      obtain ⟨t, he⟩ := h.settles.source i v hv
      obtain ⟨ht, c, hc, hci, hf⟩ := h.flag_of_bound hs hleaf he
      exact absurd ⟨t, ht, hf⟩ (hnone c hc hci)

theorem Accounts.extra_eq_unfit :
    extra = tokens.filter fun t => s.flags.all fun c => !c.1.slot.fits t := by
  rw [← h.extra_eq, ← h.tokens_eq]
  apply Ledger.extra_eq_filter
  · intro t he
    rcases h.entry_cases hs hleaf he with ⟨u, hu, hnone⟩ | ⟨c, hc, u, v, hu, -, -⟩
    · obtain rfl := Entry.kept.inj hu
      simpa using fun n i hc => hnone (n, i) hc
    · simp at hu
  · intro t i v he
    obtain ⟨-, c, hc, -, hf⟩ := h.flag_of_bound hs hleaf he
    rw [Bool.eq_false_iff]
    intro hall
    have hunfit := List.all_eq_true.mp hall c hc
    simp [hf] at hunfit

theorem Accounts.flagValues (ha : Flags.Apart s.flags tokens) :
    s.FlagValues tokens values extra := by
  refine ⟨h.length_values, ?_, ?_, ?_, h.extra_eq_unfit hs hleaf⟩
  · intro c hc t ht hf
    rw [← h.tokens_eq, Ledger.tokens, List.mem_map] at ht
    obtain ⟨e, he, rfl⟩ := ht
    rcases h.entry_cases hs hleaf he with ⟨u, rfl, hnone⟩ | ⟨d, hd, u, v, rfl, hf', hb⟩
    · simp [Entry.token, hnone c hc] at hf
    · have hu : u ∈ tokens := (h.flag_of_bound hs hleaf he).1
      obtain rfl := ha.tokens u hu d hd c hc hf' hf
      have hheld := (h.settles.held u d.2 v he).1
      exact ⟨v, hheld, Slot.conforms_of_bind (List.mem_singleton.mpr rfl) hb⟩
  · intro c hc hgiven
    refine h.empty_slot hs hleaf (slot_lt_of_mem_flags hc) fun d hd hdc => ?_
    rwa [eq_of_placed hd hc hdc]
  · intro i hi hother
    exact h.empty_slot hs hleaf hi fun c hc hci => absurd hci (hother c hc)

end

theorem FlagSet.perm {tokens' : List Token} (h : s.FlagSet tokens) (hp : tokens.Perm tokens') :
    s.FlagSet tokens' where
  once := by
    refine (hp.pairwise_iff ?_).mp h.once
    exact fun hrel c hc hfit => hrel c hc hfit.symm
  apart := by
    refine (hp.pairwise_iff ?_).mp h.apart
    exact fun hrel c hc d hd hne hf hf' g hg hdg => hrel d hd c hc (Ne.symm hne) hf' hf g hdg hg
  passes := fun t ht => h.passes t (hp.mem_iff.mpr ht)
  known := h.known.imp_right fun hk t ht => hk t (hp.mem_iff.mpr ht)
  required := by
    intro c hc hreq
    obtain ⟨t, ht, hf⟩ := h.required c hc hreq
    exact ⟨t, hp.mem_iff.mp ht, hf⟩

theorem FlagValues.eq_of_perm {tokens' extra' : List Token} {values' : List (Option Value)}
    (h : s.FlagValues tokens values extra) (h' : s.FlagValues tokens' values' extra')
    (hp : tokens.Perm tokens') : values = values' := by
  apply List.ext_getElem?
  intro i
  by_cases hi : i < s.slotCount
  · by_cases hflag : ∃ c ∈ s.flags, c.2 = i
    · obtain ⟨c, hc, rfl⟩ := hflag
      by_cases hgiven : c.1.slot.Given tokens
      · obtain ⟨t, ht, hf⟩ := hgiven
        obtain ⟨v, hv, hconf⟩ := h.given c hc t ht hf
        obtain ⟨w, hw, hconf'⟩ := h'.given c hc t (hp.mem_iff.mp ht) hf
        rw [hv, hw, hconf.unique hconf']
      · have hgiven' : ¬ c.1.slot.Given tokens' := by
          rintro ⟨t, ht, hf⟩
          exact hgiven ⟨t, hp.mem_iff.mpr ht, hf⟩
        rw [h.absent c hc hgiven, h'.absent c hc hgiven']
    · have hother : ∀ c ∈ s.flags, c.2 ≠ i := fun c hc hci => hflag ⟨c, hc, hci⟩
      rw [h.others i hi hother, h'.others i hi hother]
  · rw [List.getElem?_eq_none (by rw [h.length]; omega),
      List.getElem?_eq_none (by rw [h'.length]; omega)]

/-- Tokens behind the name of a tool, none of which fits two flags or turns the tool off. -/
structure Distinct (s : Schema) (tokens : List Token) : Prop where
  nonempty : tokens ≠ []
  oneFlag : ∀ t ∈ tokens, ∀ c ∈ s.flags, ∀ d ∈ s.flags, c.1.slot.fits t = true →
    d.1.slot.fits t = true → c.2 = d.2
  noOff : s.hasOff = true → ∀ t ∈ tokens, t.isKeyword offKeyword = false

theorem Distinct.perm {tokens' : List Token} (h : s.Distinct tokens) (hp : tokens.Perm tokens') :
    s.Distinct tokens' where
  nonempty := by
    rintro rfl
    exact h.nonempty hp.eq_nil
  oneFlag := fun t ht => h.oneFlag t (hp.mem_iff.mpr ht)
  noOff := fun hoff t ht => h.noOff hoff t (hp.mem_iff.mpr ht)

theorem Distinct.apart (h : s.Distinct tokens) : Flags.Apart s.flags tokens where
  tokens := fun t ht c hc d hd hf hf' => eq_of_placed hc hd (h.oneFlag t ht c hc d hd hf hf')
  slots := fun _ hc _ hd => eq_of_placed hc hd

theorem Distinct.offTokens (h : s.Distinct tokens) (hoff : s.hasOff = true) :
    offTokens tokens = [] :=
  OffFree.offTokens h.noOff hoff

section

variable (hs : s.fixedOrder = false) (hleaf : ∀ n ∈ s.arguments, n.children = [])
  (h : s.Distinct tokens) (name : Option Token)

include hs hleaf h

theorem walk_iff_flagSet :
    (∃ r, s.walk (s.line tokens name) = .ok r) ↔ s.FlagSet tokens := by
  rw [walk_of_flags hs]
  exact walkFlags_iff hleaf h.apart

theorem bound_of_flagSet (hset : s.FlagSet tokens) :
    ∃ values extra, (s.matchTokens tokens name).verdict = .bound values extra ∧
      s.FlagValues tokens values extra := by
  obtain ⟨⟨values, extra⟩, hw⟩ := (walk_iff_flagSet hs hleaf h name).mpr hset
  obtain ⟨g, hg⟩ := walk_accounts hw
  have hj := judge_of_walk h.nonempty h.offTokens hw
  refine ⟨values, extra, ?_, hg.flagValues hs hleaf h.apart⟩
  rw [matchTokens_of_judge hj]

theorem flagSet_of_succeeded (hok : (s.matchTokens tokens name).succeeded = true) :
    s.FlagSet tokens := by
  obtain ⟨values, extra, hw, -⟩ := walk_of_succeeded h.nonempty h.noOff hok
  exact (walk_iff_flagSet hs hleaf h name).mp ⟨_, hw⟩

theorem succeeded_iff_flagSet :
    (s.matchTokens tokens name).succeeded = true ↔ s.FlagSet tokens := by
  constructor
  · intro hok
    exact flagSet_of_succeeded hs hleaf h name hok
  · intro hset
    obtain ⟨values, extra, hv, -⟩ := bound_of_flagSet hs hleaf h name hset
    simp [Match.succeeded, hv]

theorem flagValues_of_succeeded (hok : (s.matchTokens tokens name).succeeded = true) :
    s.FlagValues tokens (s.matchTokens tokens name).values
      (s.matchTokens tokens name).extra := by
  have hset := (succeeded_iff_flagSet hs hleaf h name).mp hok
  obtain ⟨values, extra, hv, hvalues⟩ := bound_of_flagSet hs hleaf h name hset
  simpa [Match.values, Match.extra, hv] using hvalues

end

/-- Which sets of flags are accepted and what they bind, whatever their order. -/
theorem flags_in_any_order (s : Schema) (tokens : List Token) (name : Option Token)
    (hs : s.fixedOrder = false) (hleaf : ∀ n ∈ s.arguments, n.children = [])
    (h : s.Distinct tokens) :
    let m := s.matchTokens tokens name
    (m.succeeded = true ↔ s.FlagSet tokens) ∧
      (m.succeeded = true → s.FlagValues tokens m.values m.extra) ∧
      ∀ tokens', tokens.Perm tokens' →
        let m' := s.matchTokens tokens' name
        m'.succeeded = m.succeeded ∧ m'.values = m.values := by
  intro m
  refine ⟨succeeded_iff_flagSet hs hleaf h name, flagValues_of_succeeded hs hleaf h name, ?_⟩
  intro tokens' hp m'
  have hperm : m'.succeeded = true ↔ m.succeeded = true := by
    rw [succeeded_iff_flagSet hs hleaf h name, succeeded_iff_flagSet hs hleaf (h.perm hp) name]
    exact ⟨fun hset => hset.perm hp.symm, fun hset => hset.perm hp⟩
  have hsame : m'.succeeded = m.succeeded := Bool.eq_iff_iff.mpr hperm
  refine ⟨hsame, ?_⟩
  cases hok : m.succeeded with
  | true =>
    have hvalues := flagValues_of_succeeded hs hleaf h name hok
    have hvalues' := flagValues_of_succeeded hs hleaf (h.perm hp) name (hsame.trans hok)
    exact (hvalues.eq_of_perm hvalues' hp).symm
  | false => rw [m.values_of_refused hok, m'.values_of_refused (hsame.trans hok)]

theorem flags_in_any_order_strafe :
    let s := { Catalogue.strafe with allowArbitraryArguments := true }
    let tokens : List Token := [⟨.number, "299.5UPS", ⟨1, 7, 15⟩⟩, ⟨.string, "Left", ⟨1, 16, 20⟩⟩,
      ⟨.string, "now", ⟨1, 21, 24⟩⟩, ⟨.string, "veccam", ⟨1, 25, 31⟩⟩]
    let m := s.matchTokens tokens none
    s.fixedOrder = false ∧ s.Distinct tokens ∧ m.succeeded = true ∧ s.FlagSet tokens ∧
      s.FlagValues tokens m.values m.extra ∧
      (s.matchTokens tokens.reverse none).values = m.values := by
  intro s tokens m
  have hempty : ∀ n ∈ s.arguments, n.children.isEmpty = true := by decide
  have hleaf : ∀ n ∈ s.arguments, n.children = [] :=
    fun n hn => List.isEmpty_iff.mp (hempty n hn)
  have hdistinct : s.Distinct tokens :=
    ⟨by decide, by decide +kernel, by decide +kernel⟩
  have hok : m.succeeded = true := by decide +kernel
  obtain ⟨hset, hvalues, hperm⟩ := flags_in_any_order s tokens none rfl hleaf hdistinct
  exact ⟨rfl, hdistinct, hok, hset.mp hok, hvalues hok, (hperm _ tokens.reverse_perm.symm).2⟩

end

end Schema

end TasScript
