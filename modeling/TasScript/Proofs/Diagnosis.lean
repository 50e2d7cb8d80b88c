import TasScript.Proofs.Satisfaction
import TasScript.Proofs.Stopping

/-! What a match of flags in any order says is true of the line. Each flag is known to be used
exactly where its slot holds a value, each group to be taken exactly where one of its flags is used,
and by these two the loop accepts a token or tells what is wrong with it. -/

namespace TasScript

open Node

namespace Flags

variable {l : Line} {arbitrary : Bool} {candidates : List (Node × Nat)} {f f₀ : Flags}
  {c : Node × Nat}

structure Grouped (candidates : List (Node × Nat)) (f : Flags) : Prop where
  taken : ∀ g, (f.groups.lookup g).isSome = true ↔
    ∃ c ∈ candidates, c.1.slot.group = some g ∧ c.2 ∈ f.used
  single : ∀ c ∈ candidates, ∀ d ∈ candidates, ∀ g, c.1.slot.group = some g →
    d.1.slot.group = some g → c.2 ∈ f.used → d.2 ∈ f.used → c = d

theorem Grouped.take (h : Grouped candidates f)
    (hslots : ∀ c ∈ candidates, ∀ d ∈ candidates, c.2 = d.2 → c = d) (hc : c ∈ candidates)
    (hrival : f.rival? c.1.slot = none) (p : Progress) :
    Grouped candidates (f.take c.1.slot c.2 p) := by
  have hused : (f.take c.1.slot c.2 p).used = c.2 :: f.used := rfl
  -- a used flag of the same group would have been a rival
  have hfree : ∀ d ∈ candidates, ∀ g, c.1.slot.group = some g → d.1.slot.group = some g →
      d.2 ∉ f.used := by
    intro d hd g hcg hdg hdu
    rw [← Option.not_isSome_iff_eq_none, rival?_isSome] at hrival
    exact hrival ⟨g, hcg, (h.taken g).mpr ⟨d, hd, hdg, hdu⟩⟩
  refine ⟨fun g => ?_, fun d hd e he g hdg heg hdu heu => ?_⟩
  · rw [lookup_take, h.taken g, hused]
    constructor
    · rintro (hg | ⟨d, hd, hg, hdu⟩)
      · exact ⟨c, hc, hg, List.mem_cons_self⟩
      · exact ⟨d, hd, hg, List.mem_cons_of_mem _ hdu⟩
    · rintro ⟨d, hd, hg, hdu⟩
      rcases List.mem_cons.mp hdu with heq | hdu
      · exact .inl (hslots d hd c hc heq ▸ hg)
      · exact .inr ⟨d, hd, hg, hdu⟩
  · rw [hused] at hdu heu
    rcases List.mem_cons.mp hdu with hdc | hdu <;> rcases List.mem_cons.mp heu with hec | heu
    · exact hslots d hd e he (hdc.trans hec.symm)
    · have hcg := hslots d hd c hc hdc ▸ hdg
      exact absurd heu (hfree e he g hcg heg)
    · have hcg := hslots e he c hc hec ▸ heg
      exact absurd hdu (hfree d hd g hcg hdg)
    · exact h.single d hd e he g hdg heg hdu heu

theorem Reaches.grouped (h : Reaches l arbitrary candidates f₀ f)
    (hslots : ∀ c ∈ candidates, ∀ d ∈ candidates, c.2 = d.2 → c = d)
    (h₀ : Grouped candidates f₀) : Grouped candidates f := by
  induction h with
  | refl => exact h₀
  | tail _ _ hs ih =>
    cases hs with
    | pass => exact ⟨ih.taken, ih.single⟩
    | take hc hrival => exact ih.take hslots (fits_of_next? hc).1 hrival _

/-- A token before the one to be read is bound to the flag. -/
def BoundBefore (l : Line) (f : Flags) (c : Node × Nat) : Prop :=
  ∃ i < f.progress.pos, ∃ t v, l.tokens[i]? = some t ∧ c.1.slot.fits t = true ∧
    c.1.slot.bind t = .ok v ∧ f.progress.values[c.2]? = some (some v)

end Flags

namespace Schema

variable {s : Schema} {l : Line} {f : Flags} {c : Node × Nat} {t : Token}

theorem Gathers.grouped (h : s.Gathers l f) : Flags.Grouped s.flags f :=
  Flags.Reaches.grouped h (fun _ hc _ hd => eq_of_placed hc hd)
    ⟨by simp [flagStart], by simp [flagStart]⟩

theorem Gathers.holds_iff (h : s.Gathers l f) (hc : c ∈ s.flags) :
    Holds f.progress.values c.2 ↔ c.2 ∈ f.used := by
  obtain ⟨g, hg⟩ := h.follows
  have hshows := shows_fill hg.run.slots_nodup s.slotCount
  rw [← (reads_start hg.reads).2] at hshows
  have hlt := slot_lt_of_mem_flags hc
  obtain ⟨hheld, hblank⟩ := hshows c.2 (Nat.zero_le _) (by omega)
  have hsize := c.1.size_pos
  by_cases hu : c.2 ∈ f.used
  · obtain ⟨k, -, hk⟩ := hg.run.exists_block hc hu
    exact iff_of_true (hheld ((hk c.2 (by omega) (by omega)).mpr (.inl rfl))) hu
  · have hnot := hg.run.notMem_of_notMem_used hc hu (x := c.2) (by omega)
    refine iff_of_false ?_ hu
    rintro ⟨v, hv⟩
    simp [hblank hnot] at hv

theorem Gathers.missing_eq_nil (h : s.Gathers l f) : Flags.missing s.flags f = [] ↔
    ∀ c ∈ s.flags, c.1.slot.required = true → Holds f.progress.values c.2 := by
  rw [Flags.missing_eq_nil]
  constructor
  · intro hall c hc hr
    exact (h.holds_iff hc).mpr (hall c hc hr)
  · intro hall c hc hr
    exact (h.holds_iff hc).mp (hall c hc hr)

theorem Gathers.boundBefore (h : s.Gathers l f) (hc : c ∈ s.flags) (hu : c.2 ∈ f.used) :
    f.BoundBefore l c := by
  obtain ⟨g, hg⟩ := h.follows
  obtain ⟨n, t, v, hn, hf, hb, he⟩ := hg.run.exists_taken hu
  obtain rfl : n = c.1 := congrArg Prod.fst (eq_of_placed hn hc rfl)
  obtain ⟨htok, hval⟩ := reads_start hg.reads
  obtain ⟨i, hi, hget⟩ := List.mem_iff_getElem.mp he
  have hpos : f.progress.pos = g.length := by simpa [Progress.start] using hg.reads.pos
  refine ⟨i, by omega, t, v, ?_, hf, hb, ?_⟩
  · rw [htok, List.getElem?_append_left (by simpa using hi)]
    simp [Ledger.tokens, hi, hget, Entry.token]
  · rw [hval]
    exact Ledger.fill_of_mem _ hg.run.slots_nodup
      (by simpa using slot_lt_of_mem_flags hc) he

/-- Why the flags that came before do not let the token `t` be the next one. -/
inductive Explains (s : Schema) (l : Line) (f : Flags) (t : Token) : RefusalKind → Prop
  | unknown : (∀ c ∈ s.flags, c.1.slot.fits t = false) → s.allowArbitraryArguments = false →
      Explains s l f t .unknownArgument
  | repeated : (∃ c ∈ s.flags, c.1.slot.fits t = true) →
      (∀ c ∈ s.flags, c.1.slot.fits t = true → f.BoundBefore l c) →
      Explains s l f t .duplicateArgument
  | conflicting {before after : List (Node × Nat)} {c d : Node × Nat} {g : String} :
      s.flags = before ++ c :: after → c.1.slot.fits t = true →
      ¬ Holds f.progress.values c.2 →
      (∀ b ∈ before, b.1.slot.fits t = true → Holds f.progress.values b.2) →
      d ∈ s.flags → d ≠ c → c.1.slot.group = some g → d.1.slot.group = some g →
      f.BoundBefore l d → Explains s l f t .conflictingArguments

theorem Gathers.explains {miss : Miss} {q : Progress} (h : s.Gathers l f)
    (ht : l.tokens[f.progress.pos]? = some t)
    (hq : Flags.Halts l s.allowArbitraryArguments s.flags f t miss q)
    (hk : miss.mismatch.isOfNode = false) :
    miss.span = some t.span ∧ s.Explains l f t miss.mismatch.kind := by
  cases hq with
  | unknown hnone ha =>
    rw [Line.missAt_mismatch]
    exact ⟨Line.missAt_span ht, .unknown hnone ha⟩
  | @repeated c hfirst hnone =>
    rw [Line.missAt_mismatch]
    refine ⟨Line.missAt_span ht, ?_⟩
    have hfit : c.1.slot.fits t = true := by simpa using List.find?_some hfirst
    refine .repeated ⟨c, List.mem_of_find?_eq_some hfirst, hfit⟩ fun d hd hfit => ?_
    exact h.boundBefore hd (Flags.next?_eq_none.mp hnone d hd hfit)
  | @conflicting c other hnext hrival =>
    rw [Line.missAt_mismatch]
    refine ⟨Line.missAt_span ht, ?_⟩
    obtain ⟨hc, hfit, hfresh⟩ := Flags.fits_of_next? hnext
    obtain ⟨-, before, after, hsplit, hbefore⟩ := List.find?_eq_some_iff_append.mp hnext
    obtain ⟨g, hg, htaken⟩ := Flags.rival?_isSome.mp (by rw [hrival]; rfl)
    obtain ⟨d, hd, hdg, hdu⟩ := (h.grouped.taken g).mp htaken
    refine .conflicting hsplit hfit (mt (h.holds_iff hc).mp hfresh) (fun b hb hbf => ?_) hd ?_ hg
      hdg (h.boundBefore hd hdu)
    · have hmem : b ∈ s.flags := by simp [hsplit, hb]
      have hskip := hbefore b hb
      rw [h.holds_iff hmem]
      simpa [hbf] using hskip
    · rintro rfl
      exact hfresh hdu
  | @failed c _ _ _ _ hw =>
    obtain ⟨m, rfl, hm⟩ := (c.1.walks_singleton l c.2 f.progress).located hw
    simp [hm] at hk

structure Settled (s : Schema) (values : List (Option Value)) (extra : List Token) : Prop where
  required : ∀ c ∈ s.flags, c.1.slot.required = true → Holds values c.2
  single : ∀ c ∈ s.flags, ∀ d ∈ s.flags, ∀ g, c.1.slot.group = some g →
    d.1.slot.group = some g → Holds values c.2 → Holds values d.2 → c = d
  unfit : ∀ t ∈ extra, ∀ c ∈ s.flags, c.1.slot.fits t = false

theorem Gathers.settled (h : s.Gathers l f) (hmissing : Flags.missing s.flags f = []) :
    s.Settled f.progress.values f.extra where
  required := h.missing_eq_nil.mp hmissing
  single := by
    intro c hc d hd g hcg hdg hcv hdv
    exact h.grouped.single c hc d hd g hcg hdg ((h.holds_iff hc).mp hcv) ((h.holds_iff hd).mp hdv)
  unfit := by
    obtain ⟨g, hg⟩ := h.follows
    intro t ht
    exact hg.run.fits_of_mem_extra (hg.extra ▸ ht)

theorem Stops.explains {miss : Miss} {q : Progress} (h : s.Stops l miss q)
    (hs : s.fixedOrder = false) (hk : miss.mismatch.isOfNode = false) :
    ∃ f t, s.Gathers l f ∧ l.tokens[f.progress.pos]? = some t ∧ miss.span = some t.span ∧
      s.Explains l f t miss.mismatch.kind := by
  cases h with
  | node ho => simp [hs] at ho
  | trailing ho => simp [hs] at ho
  | @flag f t _ _ _ hf ht hq => exact ⟨f, t, hf, ht, hf.explains ht hq hk⟩
  | missing =>
    rw [Line.missAt_mismatch] at hk
    cases hk

/-- The outcome for flags in any order is true of the line. What is accepted settles the flags. What
is refused on account of other flags names a token that these explain. Where no token was left,
flags are said to be missing if a required one holds no value, and only then. -/
theorem outcome_of_flags (s : Schema) (tokens : List Token) (name : Option Token)
    (hs : s.fixedOrder = false) (hne : tokens ≠ []) (hoff : s.OffFree tokens) :
    ((s.matchTokens tokens name).succeeded = true →
        s.Settled (s.matchTokens tokens name).values (s.matchTokens tokens name).extra) ∧
      (∀ r, (s.matchTokens tokens name).refusal? = some r →
        r.kind ∈ [.unknownArgument, .duplicateArgument, .conflictingArguments] →
        ∃ f t, s.Gathers (s.line tokens name) f ∧ tokens[f.progress.pos]? = some t ∧
          r.span = some t.span ∧ s.Explains (s.line tokens name) f t r.kind) ∧
      ∀ f, s.Gathers (s.line tokens name) f → tokens.length ≤ f.progress.pos →
        ((∃ r, (s.matchTokens tokens name).refusal? = some r ∧ r.kind = .missingArguments) ↔
          ∃ c ∈ s.flags, c.1.slot.required = true ∧ ¬ Holds f.progress.values c.2) := by
  refine ⟨fun h => ?_, fun r hr hk => ?_, fun f hf hend => ?_⟩
  · obtain ⟨v, hj, hm⟩ := matchTokens_of_succeeded h
    rw [hm]
    rcases judge_cases hj with
      ⟨hnil, -⟩ | ⟨⟨t, ht, hk⟩, ho, -⟩ | ⟨-, -, values, extra, hw, rfl⟩
    · exact absurd hnil hne
    · have hmem : t ∈ tokens := by simp [show tokens = [t] from ht]
      simp [hoff ho t hmem] at hk
    · simp only [walk, hs, Bool.false_eq_true, if_false] at hw
      obtain ⟨f, hf, -, hmissing, rfl, rfl⟩ := walkFlags_eq_ok_iff.mp hw
      exact hf.settled hmissing
  · have hnode : ∀ k ∈ [RefusalKind.unknownArgument, .duplicateArgument, .conflictingArguments],
        k.isOfNode = false := by decide
    obtain ⟨miss, q, hstop, rfl⟩ := (refusal?_eq_some_iff hne hoff).mp hr
    exact hstop.explains hs (hnode _ hk)
  · simp only [refusal?_eq_some_iff hne hoff]
    by_cases hmissing : Flags.missing s.flags f = []
    · refine iff_of_false ?_ ?_
      · rintro ⟨_, ⟨miss, q, hstop, -⟩, -⟩
        have herror := (walkFlags_eq_error_iff hs).mpr ⟨q, hstop⟩
        simp [walkFlags_eq_ok_iff.mpr ⟨f, hf, hend, hmissing, rfl, rfl⟩] at herror
      · rintro ⟨c, hc, hr, hnot⟩
        exact hnot (hf.missing_eq_nil.mp hmissing c hc hr)
    · refine iff_of_true ⟨_, ⟨_, _, .missing hs hf hend hmissing, rfl⟩, ?_⟩ ?_
      · simp [Miss.refusal, Mismatch.kind]
      · simpa using mt hf.missing_eq_nil.mpr hmissing

/-- One shot is of one color. -/
theorem outcome_of_flags_colors :
    let tokens : List Token := [⟨.string, "spam", ⟨1, 6, 10⟩⟩, ⟨.string, "blue", ⟨1, 11, 15⟩⟩,
      ⟨.string, "orange", ⟨1, 16, 22⟩⟩]
    let l := Catalogue.shoot.line tokens none
    ∃ f t, Catalogue.shoot.Gathers l f ∧ tokens[f.progress.pos]? = some t ∧
      t.span = ⟨1, 16, 22⟩ ∧ Catalogue.shoot.Explains l f t .conflictingArguments := by
  intro tokens l
  have hoff : Catalogue.shoot.OffFree tokens := fun _ => by decide +kernel
  have hr : (Catalogue.shoot.matchTokens tokens none).refusal? =
      some ⟨.conflictingArguments, "'orange' conflicts with 'blue'", some ⟨1, 16, 22⟩⟩ := by
    decide +kernel
  obtain ⟨-, hrefused, -⟩ :=
    outcome_of_flags Catalogue.shoot tokens none rfl (by simp [tokens]) hoff
  obtain ⟨f, t, hf, ht, hspan, hexplains⟩ := hrefused _ hr (by simp)
  exact ⟨f, t, hf, ht, (Option.some.inj hspan).symm, hexplains⟩

end Schema

end TasScript
