import TasScript.Proofs.Commitment
import TasScript.Proofs.Declining

/-! The loop over flags goes round once for each flag it reads. A token that fits a slot is one that
the slot binds, or would bind if it lay within the bounds; so the flag that is walked in a round
binds its token, the loop comes to an end, and no flag is left for its alternative. -/

namespace TasScript

namespace Slot

variable {s : Slot} {t : Token}

theorem fits_number (ht : s.text = none) (hk : s.kind = .number) :
    s.fits t = match t.amount? with
      | some (_, suffix) => s.acceptsUnit suffix
      | none => false := by
  unfold fits Token.amount?
  simp only [ht, hk]
  cases t.isNumber <;> rfl

theorem refused_of_unfit (hf : s.fits t = false) :
    s.Declines t ∨ ∃ m, s.bind t = .error m ∧ m.kind = .unitMismatch := by
  cases ht : s.text with
  | some keyword =>
    refine .inl ((declines_keyword ht).mpr ?_)
    simpa only [fits, ht] using hf
  | none =>
    cases hk : s.kind with
    | number =>
      rw [fits_number ht hk] at hf
      cases ha : t.amount? with
      | none => exact .inl ((declines_number ht hk).mpr ha)
      | some r =>
        have hunit : s.acceptsUnit r.2 = false := by simpa only [ha] using hf
        refine .inr ⟨s.unitMismatch r.2, ?_, kind_unitMismatch s r.2⟩
        rw [bind_number ht hk, bindNumber_eq_match, ha]
        simp [hunit]
    | string =>
      have hword : t.isNumber = true ∨ ∃ choices, s.choices = some choices ∧
          lower t.text ∉ choices := by
        cases hn : t.isNumber with
        | true => exact .inl rfl
        | false =>
          cases hc : s.choices with
          | none => simp [fits, ht, hk, hc, hn] at hf
          | some choices => exact .inr ⟨choices, rfl, by simpa [fits, ht, hk, hc, hn] using hf⟩
      left
      cases hc : s.choices with
      | none =>
        refine (declines_word ht hk hc).mpr ?_
        rcases hword with hn | ⟨choices, hsome, -⟩
        · exact hn
        · simp [hc] at hsome
      | some choices =>
        refine (declines_choice ht hk hc).mpr (hword.imp_right ?_)
        rintro ⟨choices', hsome, hnot⟩
        obtain rfl := Option.some.inj (hc.symm.trans hsome)
        exact hnot

end Slot

namespace Line

variable {l : Line} {s : Slot} {slot : Nat} {p : Progress} {t : Token}

theorem bindHead_of_token (ht : l.tokens[p.pos]? = some t) :
    l.bindHead s slot p = match s.bind t with
      | .ok v => .ok (p.bind slot v)
      | .error m => .error (l.missAt p.pos m) := by
  cases hb : s.bind t <;> simp [bindHead, ht, hb]

/-- The head of a node binds the token, or the token is a number out of its bounds. -/
def Takes (l : Line) (s : Slot) (slot : Nat) (p : Progress) : Prop :=
  (∃ v, l.bindHead s slot p = .ok (p.bind slot v)) ∨
    ∃ miss, l.bindHead s slot p = .error miss ∧ miss.mismatch.kind = .outOfRange

/-- The head of a node passes over the token, or the token is a number of another unit. -/
def Leaves (l : Line) (s : Slot) (slot : Nat) (p : Progress) : Prop :=
  ∃ miss, l.bindHead s slot p = .error miss ∧
    (miss.mismatch.isSoft = true ∨ miss.mismatch.kind = .unitMismatch)

theorem takes_of_fits (ht : l.tokens[p.pos]? = some t) (hf : s.fits t = true) :
    l.Takes s slot p := by
  unfold Takes
  rw [bindHead_of_token ht]
  cases hb : s.bind t with
  | ok v => exact .inl ⟨v, rfl⟩
  | error m => exact .inr ⟨_, rfl, by rw [missAt_mismatch]; exact Slot.kind_of_fits hf hb⟩

theorem leaves_of_unfit (ht : l.tokens[p.pos]? = some t) (hf : s.fits t = false) :
    l.Leaves s slot p := by
  have hm : ∃ m, s.bind t = .error m ∧ (m.isSoft = true ∨ m.kind = .unitMismatch) := by
    rcases Slot.refused_of_unfit hf with ⟨m, hb, hsoft⟩ | ⟨m, hb, hk⟩
    · exact ⟨m, hb, .inl hsoft⟩
    · exact ⟨m, hb, .inr hk⟩
  obtain ⟨m, hb, hm⟩ := hm
  refine ⟨l.missAt p.pos m, ?_, by rwa [missAt_mismatch]⟩
  rw [bindHead_of_token ht, hb]

theorem Takes.not_leaves (h : l.Takes s slot p) : ¬ l.Leaves s slot p := by
  rintro ⟨miss, hmiss, hm⟩
  rcases h with ⟨v, hv⟩ | ⟨other, hother, hk⟩
  · simp [hv] at hmiss
  · obtain rfl := Except.error.inj (hother.symm.trans hmiss)
    rcases hm with hsoft | hu
    · simp [Mismatch.isSoft, hk] at hsoft
    · simp [hk] at hu

theorem fits_iff_takes (ht : l.tokens[p.pos]? = some t) :
    s.fits t = true ↔ l.Takes s slot p := by
  refine ⟨takes_of_fits ht, fun h => ?_⟩
  cases hf : s.fits t with
  | true => rfl
  | false => exact absurd (leaves_of_unfit ht hf) h.not_leaves

theorem unfit_iff_leaves (ht : l.tokens[p.pos]? = some t) :
    s.fits t = false ↔ l.Leaves s slot p := by
  refine ⟨leaves_of_unfit ht, fun h => ?_⟩
  cases hf : s.fits t with
  | true => exact absurd h (takes_of_fits ht hf).not_leaves
  | false => rfl

end Line

namespace Node

variable {l : Line} {slot : Nat} {p : Progress} {t : Token}

def withOtherwise (n : Node) (os : List Node) : Node := .mk n.slot n.children os

@[simp] theorem withOtherwise_slot (n : Node) (os : List Node) :
    (n.withOtherwise os).slot = n.slot := rfl

theorem walk_withOtherwise (slot : Nat) (n : Node) (os : List Node) (ht : l.tokens[p.pos]? = some t)
    (hf : n.slot.fits t = true) : (n.withOtherwise os).walk l slot p = n.walk l slot p := by
  obtain ⟨s, cs, os'⟩ := n
  have htakes : l.Takes s slot p := Line.takes_of_fits ht hf
  simp only [withOtherwise, Node.slot, children, walk]
  rcases htakes with ⟨v, hv⟩ | ⟨miss, hmiss, hk⟩
  · simp only [hv]
  · have hsoft : miss.mismatch.isSoft = false := by simp [Mismatch.isSoft, hk]
    simp [hmiss, hsoft]

namespace Call

/-- The first node is left for its alternative. -/
inductive Turns (l : Line) : Call → Prop
  | intro {slot : Nat} {p : Progress} {s : Slot} {cs os ns : List Node} {head : Miss} :
      l.bindHead s slot p = .error head → head.mismatch.isSoft = true → os ≠ [] →
      Turns l ⟨slot, p, .mk s cs os :: ns⟩

end Call

end Node

open Node

namespace Flags

variable {l : Line} {arbitrary : Bool} {candidates : List (Node × Nat)} {f f₀ g : Flags}
  {t : Token} {n steps : Nat} {alternative : Node × Nat → List Node}

/-- The flags with other alternatives, each in its place. -/
def altered (alternative : Node × Nat → List Node) (candidates : List (Node × Nat)) :
    List (Node × Nat) :=
  candidates.map fun c => (c.1.withOtherwise (alternative c), c.2)

theorem next?_altered : next? (altered alternative candidates) f t =
    (next? candidates f t).map fun c => (c.1.withOtherwise (alternative c), c.2) := by
  rw [next?, altered, List.find?_map]
  rfl

theorem find?_fits_altered :
    (altered alternative candidates).find? (fun c => c.1.slot.fits t) =
      (candidates.find? fun c => c.1.slot.fits t).map
        fun c => (c.1.withOtherwise (alternative c), c.2) := by
  rw [altered, List.find?_map]
  rfl

theorem step_altered (ht : l.tokens[f.progress.pos]? = some t) :
    step l arbitrary (altered alternative candidates) f t = step l arbitrary candidates f t := by
  rw [step_eq, step_eq, find?_fits_altered, next?_altered]
  cases candidates.find? fun c => c.1.slot.fits t with
  | none => rfl
  | some first =>
    cases hnext : next? candidates f t with
    | none => rfl
    | some c =>
      obtain ⟨-, hfit, -⟩ := fits_of_next? hnext
      have hwalk := c.1.walk_withOtherwise c.2 (alternative c) ht hfit
      simp only [Option.map_some, withOtherwise_slot, hwalk]

theorem gather_altered (steps : Nat) :
    gather l arbitrary (altered alternative candidates) steps f =
      gather l arbitrary candidates steps f := by
  induction steps generalizing f with
  | zero => rfl
  | succ steps ih =>
    rw [gather, gather]
    cases ht : l.tokens[f.progress.pos]? with
    | none => rfl
    | some t =>
      dsimp only
      rw [step_altered ht]
      cases step l arbitrary candidates f t with
      | ok g => exact ih
      | error miss => rfl

/-- The loop comes to a state after so many rounds. -/
inductive Rounds (l : Line) (arbitrary : Bool) (candidates : List (Node × Nat)) (f₀ : Flags) :
    Nat → Flags → Prop
  | zero : Rounds l arbitrary candidates f₀ 0 f₀
  | succ {n : Nat} {f g : Flags} {t : Token} : Rounds l arbitrary candidates f₀ n f →
      l.tokens[f.progress.pos]? = some t → step l arbitrary candidates f t = .ok g →
      Rounds l arbitrary candidates f₀ (n + 1) g

namespace Rounds

theorem reaches (h : Rounds l arbitrary candidates f₀ n f) :
    Reaches l arbitrary candidates f₀ f := by
  induction h with
  | zero => exact .refl
  | succ _ ht hs ih => exact ih.tail ht (step_eq_ok_iff.mp hs)

theorem pos_le (h : Rounds l arbitrary candidates f₀ n f) :
    f₀.progress.pos + n ≤ f.progress.pos := by
  induction h with
  | zero => exact Nat.le_refl _
  | succ _ ht hs ih =>
    have hpos := (step_eq_ok_iff.mp hs).pos_lt ht
    omega

end Rounds

theorem Reaches.rounds (h : Reaches l arbitrary candidates f₀ f) :
    ∃ n, Rounds l arbitrary candidates f₀ n f := by
  induction h with
  | refl => exact ⟨0, .zero⟩
  | tail _ ht hs ih =>
    obtain ⟨n, hn⟩ := ih
    exact ⟨n + 1, hn.succ ht (step_eq_ok_iff.mpr hs)⟩

/-- Steps beyond the tokens that are left change nothing. -/
theorem gather_of_le (hn : l.tokens.length ≤ f₀.progress.pos + n) (hs : n ≤ steps) :
    gather l arbitrary candidates steps f₀ = gather l arbitrary candidates n f₀ := by
  have hsteps : l.tokens.length ≤ f₀.progress.pos + steps := by omega
  cases h : gather l arbitrary candidates n f₀ with
  | ok f => exact (gather_eq_ok_iff hsteps).mpr ((gather_eq_ok_iff hn).mp h)
  | error miss => exact (gather_eq_error_iff hsteps).mpr ((gather_eq_error_iff hn).mp h)

end Flags

namespace Schema

variable {s : Schema} {l : Line} {f : Flags} {t : Token} {n : Nat} {c : Call}

def Rounds (s : Schema) (l : Line) (n : Nat) (f : Flags) : Prop :=
  Flags.Rounds l s.allowArbitraryArguments s.flags s.flagStart n f

def flagStep (s : Schema) (l : Line) (f : Flags) (t : Token) : Except Miss Flags :=
  Flags.step l s.allowArbitraryArguments s.flags f t

theorem Rounds.gathers (h : s.Rounds l n f) : s.Gathers l f := Flags.Rounds.reaches h

theorem Rounds.le_pos (h : s.Rounds l n f) : n ≤ f.progress.pos := by
  have hpos := Flags.Rounds.pos_le h
  simpa [flagStart, Progress.start] using hpos

theorem Rounds.le_length (h : s.Rounds l n f) : n ≤ l.tokens.length := by
  obtain ⟨g, hg⟩ := h.gathers.reads
  exact Nat.le_trans h.le_pos (hg.pos_le_length (Nat.zero_le _))

theorem flagStep_cases (ht : l.tokens[f.progress.pos]? = some t) :
    (∃ g, s.flagStep l f t = .ok g ∧ f.progress.pos < g.progress.pos) ∨
      ∃ miss q, s.flagStep l f t = .error miss ∧
        Flags.Halts l s.allowArbitraryArguments s.flags f t miss q := by
  cases hstep : s.flagStep l f t with
  | ok g => exact .inl ⟨g, rfl, (Flags.step_eq_ok_iff.mp hstep).pos_lt ht⟩
  | error miss =>
    obtain ⟨q, hq⟩ := Flags.step_eq_error_iff.mp hstep
    exact .inr ⟨miss, q, rfl, hq⟩

/-- The loop comes to the last token or to a round that fails. -/
theorem exists_last_round (s : Schema) (l : Line) : ∃ n f, s.Rounds l n f ∧
    (l.tokens.length ≤ f.progress.pos ∨
      ∃ t miss, l.tokens[f.progress.pos]? = some t ∧ s.flagStep l f t = .error miss) := by
  have hn : l.tokens.length ≤ s.flagStart.progress.pos + l.tokens.length := Nat.le_add_left _ _
  cases h : Flags.gather l s.allowArbitraryArguments s.flags l.tokens.length s.flagStart with
  | ok f =>
    obtain ⟨hr, hend⟩ := (Flags.gather_eq_ok_iff hn).mp h
    obtain ⟨n, hrounds⟩ := hr.rounds
    exact ⟨n, f, hrounds, .inl hend⟩
  | error miss =>
    obtain ⟨f, t, q, hr, ht, hq⟩ := (Flags.gather_eq_error_iff hn).mp h
    obtain ⟨n, hrounds⟩ := hr.rounds
    exact ⟨n, f, hrounds, .inr ⟨t, miss, ht, Flags.step_eq_error_iff.mpr ⟨q, hq⟩⟩⟩

theorem Enters.not_turns (h : s.Enters l c) (hs : s.fixedOrder = false) : ¬ c.Turns l := by
  cases h with
  | ordered ho => simp [hs] at ho
  | @flag f t c _ _ ht hnext _ =>
    obtain ⟨-, hfit, -⟩ := Flags.fits_of_next? hnext
    obtain ⟨⟨slot, cs, os⟩, i⟩ := c
    intro hturns
    cases hturns with
    | intro hhead hsoft _ =>
      have htakes : l.Takes slot i f.progress := Line.takes_of_fits ht hfit
      exact htakes.not_leaves ⟨_, hhead, .inl hsoft⟩

variable {tokens : List Token} {name : Option Token} {miss : Miss} {q : Progress}

theorem Rounds.refused (h : s.Rounds (s.line tokens name) n f) (hs : s.fixedOrder = false)
    (hoff : s.OffFree tokens) (ht : tokens[f.progress.pos]? = some t)
    (hq : Flags.Halts (s.line tokens name) s.allowArbitraryArguments s.flags f t miss q) :
    (s.matchTokens tokens name).refusal? = some miss.refusal := by
  have hne : tokens ≠ [] := by
    rintro rfl
    simp at ht
  rw [refused_of_stops hne hoff (.flag hs h.gathers ht hq)]
  rfl

/-- The test for a flag agrees with the binding of its slot, and so the loop comes to an end. A
round reads a token or refuses the line, there are no more rounds than tokens, and the alternatives
of the flags are neither entered nor of any effect. -/
theorem flag_rounds_bounded (s : Schema) (tokens : List Token) (name : Option Token) :
    let l := s.line tokens name
    let gather := Flags.gather l s.allowArbitraryArguments
    (∀ (r : Slot) (i : Nat) (p : Progress) (t : Token), tokens[p.pos]? = some t →
        (r.fits t = true ↔ l.Takes r i p) ∧ (r.fits t = false ↔ l.Leaves r i p)) ∧
      (∀ n f t, s.Rounds l n f → tokens[f.progress.pos]? = some t → n < tokens.length ∧
        ((∃ g, s.flagStep l f t = .ok g ∧ f.progress.pos < g.progress.pos) ∨
          ∃ miss, s.flagStep l f t = .error miss ∧
            (s.fixedOrder = false → s.OffFree tokens →
              (s.matchTokens tokens name).refusal? = some miss.refusal))) ∧
      (∃ n f, s.Rounds l n f ∧ n ≤ tokens.length ∧
        (tokens.length ≤ f.progress.pos ∨
          ∃ t miss, tokens[f.progress.pos]? = some t ∧ s.flagStep l f t = .error miss)) ∧
      (∀ steps, tokens.length ≤ steps →
        gather s.flags steps s.flagStart = gather s.flags tokens.length s.flagStart) ∧
      (∀ alternative steps, gather (Flags.altered alternative s.flags) steps s.flagStart =
        gather s.flags steps s.flagStart) ∧
      ∀ call, s.fixedOrder = false → s.Enters l call → ¬ call.Turns l := by
  intro l gather
  refine ⟨fun r i p t ht => ?_, fun n f t hr ht => ⟨?_, ?_⟩, ?_, fun steps hs => ?_,
    fun alternative steps => ?_, fun call hs hcall => ?_⟩
  · exact ⟨Line.fits_iff_takes ht, Line.unfit_iff_leaves ht⟩
  · have hlt := (List.getElem?_eq_some_iff.mp ht).1
    have hle := hr.le_pos
    omega
  · rcases flagStep_cases (s := s) (l := l) ht with hg | ⟨miss, q, hmiss, hq⟩
    · exact .inl hg
    · exact .inr ⟨miss, hmiss, fun hs hoff => hr.refused hs hoff ht hq⟩
  · obtain ⟨n, f, hr, hend⟩ := s.exists_last_round l
    exact ⟨n, f, hr, hr.le_length, hend⟩
  · exact Flags.gather_of_le (Nat.le_add_left _ _) hs
  · exact Flags.gather_altered steps
  · exact hcall.not_turns hs

/-- The second of two directions is refused in the second round. -/
theorem flag_rounds_bounded_directions :
    let right : Token := ⟨.string, "right", ⟨3, 12, 17⟩⟩
    let tokens : List Token := [⟨.string, "left", ⟨3, 7, 11⟩⟩, right]
    let l := Catalogue.strafe.line tokens none
    ∃ f miss, Catalogue.strafe.Rounds l 1 f ∧ tokens[f.progress.pos]? = some right ∧
      1 < tokens.length ∧ Catalogue.strafe.flagStep l f right = .error miss ∧
      (Catalogue.strafe.matchTokens tokens none).refusal? = some miss.refusal := by
  intro right tokens l
  have hfirst : ∃ f, Catalogue.strafe.flagStep l Catalogue.strafe.flagStart
      ⟨.string, "left", ⟨3, 7, 11⟩⟩ = .ok f ∧ tokens[f.progress.pos]? = some right ∧
      (Catalogue.strafe.flagStep l f right).isOk = false := ⟨_, rfl, rfl, by decide +kernel⟩
  obtain ⟨f, hf, ht, hmiss⟩ := hfirst
  have hround : Catalogue.strafe.Rounds l 1 f := .succ .zero rfl hf
  have hoff : Catalogue.strafe.OffFree tokens := fun _ => by decide +kernel
  obtain ⟨-, hrounds, -⟩ := flag_rounds_bounded Catalogue.strafe tokens none
  obtain ⟨hlt, ⟨g, hg, -⟩ | ⟨miss, hmiss', hrefused⟩⟩ := hrounds 1 f right hround ht
  · have hok : (Catalogue.strafe.flagStep l f right).isOk = true := by rw [hg]; rfl
    simp [hok] at hmiss
  · exact ⟨f, miss, hround, ht, hlt, hmiss', hrefused rfl hoff⟩

end Schema

end TasScript
