import TasScript.Invocation.Flags
import TasScript.Proofs.Walk

/-! Every way the loop over flags can go. A step passes over its token or takes one flag with its
children, and what ends the loop is the last token or the failure of one step. -/

namespace TasScript

namespace Slot

theorem bindNumber_eq {s : Slot} {t : Token} {x : Float} {suffix : String}
    (hn : t.isNumber = true) (hx : splitNumber? t.text = some (x, suffix))
    (hu : s.acceptsUnit suffix = true) : s.bindNumber t = s.bindAmount x := by
  simp [bindNumber, hn, hx, hu]

/-- Only the bounds of a number stand between a token that fits a slot and its value. -/
theorem kind_of_fits {s : Slot} {t : Token} {m : Mismatch} (hf : s.fits t = true)
    (hb : s.bind t = .error m) : m.kind = .outOfRange := by
  unfold fits at hf
  unfold bind at hb
  split at hf
  · rename_i text ht
    simp [ht, hf] at hb
  · rename_i hx hk
    simp only [hx, hk] at hb
    rw [Bool.and_eq_true] at hf
    obtain ⟨hn, hf⟩ := hf
    split at hf
    · rename_i x suffix hs
      rw [bindNumber_eq hn hs hf] at hb
      exact kind_of_bindAmount hb
    · simp at hf
  · rename_i hx hk
    rw [Bool.and_eq_true, Bool.not_eq_true'] at hf
    simp only [hx, hk, bindWord, hf.1, Bool.false_eq_true, if_false] at hb
    split at hb
    · simp at hb
    · rename_i choices hc
      simp only [hc] at hf
      simp [-List.contains_eq_mem, hf.2] at hb

theorem isSoft_of_fits {s : Slot} {t : Token} {m : Mismatch} (hf : s.fits t = true)
    (hb : s.bind t = .error m) : m.isSoft = false := by
  simp [Mismatch.isSoft, kind_of_fits hf hb]

end Slot

namespace Node

theorem walk_of_fits {l : Line} {slot : Nat} {p q : Progress} {t : Token} (n : Node)
    (ht : l.tokens[p.pos]? = some t) (hf : n.slot.fits t = true)
    (hq : n.walk l slot p = .done q) :
    ∃ v h, n.slot.bind t = .ok v ∧ Derives (slot + 1) n.children h ∧
      l.Reads p (.bound t slot v :: h) q := by
  obtain ⟨s, cs, os⟩ := n
  rw [walk] at hq
  split at hq
  · rename_i r hr
    obtain ⟨u, v, hu, hv, rfl⟩ := Line.bindHead_eq_ok hr
    obtain rfl : t = u := Option.some.inj (ht.symm.trans hu)
    obtain ⟨h, hd, hread⟩ := walkAll_reading l _ _ q cs hq
    exact ⟨v, h, hv, hd, (Line.Reads.bind ht).trans hread⟩
  · rename_i miss hr
    cases hb : s.bind t with
    | ok v => simp [Line.bindHead, ht, hb] at hr
    | error m =>
      have hsoft : m.isSoft = false := Slot.isSoft_of_fits hf hb
      simp only [Line.bindHead, ht, hb, Except.error.injEq] at hr
      subst hr
      simp [Line.missAt, ht, hsoft] at hq

end Node

namespace Flags

variable {l : Line} {arbitrary : Bool} {candidates : List (Node × Nat)} {f f₀ g : Flags}
  {t : Token} {miss : Miss} {q : Progress}

def next? (candidates : List (Node × Nat)) (f : Flags) (t : Token) : Option (Node × Nat) :=
  candidates.find? fun c => c.1.slot.fits t && !f.used.contains c.2

/-- One step that reads the token `t` comes to `g`. -/
inductive Steps (l : Line) (arbitrary : Bool) (candidates : List (Node × Nat)) (f : Flags)
    (t : Token) : Flags → Prop
  | pass : (∀ c ∈ candidates, c.1.slot.fits t = false) → arbitrary = true →
      Steps l arbitrary candidates f t (f.pass t)
  | take {c : Node × Nat} {p : Progress} : next? candidates f t = some c →
      f.rival? c.1.slot = none → c.1.walk l c.2 f.progress = .done p →
      Steps l arbitrary candidates f t (f.take c.1.slot c.2 p)

/-- The step that starts with the token `t` fails, and has come to `q` then. -/
inductive Halts (l : Line) (arbitrary : Bool) (candidates : List (Node × Nat)) (f : Flags)
    (t : Token) : Miss → Progress → Prop
  | unknown : (∀ c ∈ candidates, c.1.slot.fits t = false) → arbitrary = false →
      Halts l arbitrary candidates f t (l.missAt f.progress.pos (.unknown t.text l.tool)) f.progress
  | repeated {c : Node × Nat} : candidates.find? (fun c => c.1.slot.fits t) = some c →
      next? candidates f t = none →
      Halts l arbitrary candidates f t (l.missAt f.progress.pos (.repeated c.1.slot.label))
        f.progress
  | conflicting {c : Node × Nat} {other : String} : next? candidates f t = some c →
      f.rival? c.1.slot = some other →
      Halts l arbitrary candidates f t
        (l.missAt f.progress.pos (.conflicting c.1.slot.label other)) f.progress
  | failed {c : Node × Nat} {miss : Miss} {q : Progress} : next? candidates f t = some c →
      f.rival? c.1.slot = none → c.1.walk l c.2 f.progress = .failed miss q →
      Halts l arbitrary candidates f t miss q

theorem step_eq : step l arbitrary candidates f t =
    match candidates.find? (fun c => c.1.slot.fits t) with
    | none =>
      if arbitrary then .ok (f.pass t)
      else .error (l.missAt f.progress.pos (.unknown t.text l.tool))
    | some first =>
      match next? candidates f t with
      | none => .error (l.missAt f.progress.pos (.repeated first.1.slot.label))
      | some c =>
        match f.rival? c.1.slot with
        | some other => .error (l.missAt f.progress.pos (.conflicting c.1.slot.label other))
        | none =>
          match c.1.walk l c.2 f.progress with
          | .done p => .ok (f.take c.1.slot c.2 p)
          | .failed miss _ => .error miss := by
  have hnext : next? candidates f t =
      (candidates.filter fun c => c.1.slot.fits t).find? fun c => !f.used.contains c.2 := by
    simp [next?, List.find?_filter, Bool.decide_and]
  unfold step
  rw [hnext, ← List.head?_filter]
  cases candidates.filter fun c => c.1.slot.fits t with
  | nil => rfl
  | cons first others =>
    dsimp only [List.head?_cons]
    cases (first :: others).find? fun c => !f.used.contains c.2 <;> rfl

theorem fits_of_next? {c : Node × Nat} (h : next? candidates f t = some c) :
    c ∈ candidates ∧ c.1.slot.fits t = true ∧ c.2 ∉ f.used := by
  have hp := List.find?_some h
  simp only [Bool.and_eq_true, Bool.not_eq_true', List.contains_eq_mem,
    decide_eq_false_iff_not] at hp
  exact ⟨List.mem_of_find?_eq_some h, hp⟩

theorem next?_eq_none : next? candidates f t = none ↔
    ∀ c ∈ candidates, c.1.slot.fits t = true → c.2 ∈ f.used := by
  simp [next?]

theorem find?_fits_of_next? {c : Node × Nat} (h : next? candidates f t = some c) :
    ∃ first, candidates.find? (fun c => c.1.slot.fits t) = some first := by
  obtain ⟨hc, hf, -⟩ := fits_of_next? h
  exact Option.isSome_iff_exists.mp (List.find?_isSome.mpr ⟨c, hc, hf⟩)

theorem find?_fits_eq_none : candidates.find? (fun c => c.1.slot.fits t) = none ↔
    ∀ c ∈ candidates, c.1.slot.fits t = false := by
  simp

theorem lookup_take (f : Flags) (s : Slot) (slot : Nat) (p : Progress) (g : String) :
    ((f.take s slot p).groups.lookup g).isSome = true ↔
      s.group = some g ∨ (f.groups.lookup g).isSome = true := by
  unfold take
  cases hg : s.group with
  | none => simp
  | some g' =>
    dsimp only
    rw [List.lookup_cons]
    by_cases heq : g' = g
    · simp [heq]
    · have hbeq : (g == g') = false := by simpa using Ne.symm heq
      rw [hbeq, Option.some.injEq]
      exact ⟨.inr, fun h => h.resolve_left heq⟩

theorem rival?_isSome {f : Flags} {s : Slot} : (f.rival? s).isSome = true ↔
    ∃ g, s.group = some g ∧ (f.groups.lookup g).isSome = true := by
  unfold rival?
  cases s.group <;> simp

theorem step_eq_ok_iff : step l arbitrary candidates f t = .ok g ↔
    Steps l arbitrary candidates f t g := by
  rw [step_eq]
  constructor
  · intro h
    split at h
    · rename_i hnone
      split at h
      · rename_i ha
        obtain rfl := Except.ok.inj h
        exact .pass (find?_fits_eq_none.mp hnone) ha
      · simp at h
    · split at h
      · simp at h
      · rename_i c hc
        split at h
        · simp at h
        · rename_i hrival
          split at h
          · rename_i p hp
            obtain rfl := Except.ok.inj h
            exact .take hc hrival hp
          · simp at h
  · intro h
    cases h with
    | pass hnone ha => simp only [find?_fits_eq_none.mpr hnone, ha, if_true]
    | take hc hrival hp =>
      obtain ⟨first, hfirst⟩ := find?_fits_of_next? hc
      simp only [hfirst, hc, hrival, hp]

theorem step_eq_error_iff : step l arbitrary candidates f t = .error miss ↔
    ∃ q, Halts l arbitrary candidates f t miss q := by
  rw [step_eq]
  constructor
  · intro h
    split at h
    · rename_i hnone
      split at h
      · simp at h
      · rename_i ha
        obtain rfl := Except.error.inj h
        exact ⟨_, .unknown (find?_fits_eq_none.mp hnone) (by simpa using ha)⟩
    · rename_i first hfirst
      split at h
      · rename_i hnone
        obtain rfl := Except.error.inj h
        exact ⟨_, .repeated hfirst hnone⟩
      · rename_i c hc
        split at h
        · rename_i other hrival
          obtain rfl := Except.error.inj h
          exact ⟨_, .conflicting hc hrival⟩
        · rename_i hrival
          split at h
          · simp at h
          · rename_i miss' q hq
            obtain rfl := Except.error.inj h
            exact ⟨q, .failed hc hrival hq⟩
  · rintro ⟨q, h⟩
    cases h with
    | unknown hnone ha =>
      simp only [find?_fits_eq_none.mpr hnone, ha, Bool.false_eq_true, if_false]
    | repeated hfirst hnone => simp only [hfirst, hnone]
    | conflicting hc hrival =>
      obtain ⟨first, hfirst⟩ := find?_fits_of_next? hc
      simp only [hfirst, hc, hrival]
    | failed hc hrival hq =>
      obtain ⟨first, hfirst⟩ := find?_fits_of_next? hc
      simp only [hfirst, hc, hrival, hq]

inductive Reaches (l : Line) (arbitrary : Bool) (candidates : List (Node × Nat)) (f₀ : Flags) :
    Flags → Prop
  | refl : Reaches l arbitrary candidates f₀ f₀
  | tail {f g : Flags} {t : Token} : Reaches l arbitrary candidates f₀ f →
      l.tokens[f.progress.pos]? = some t → Steps l arbitrary candidates f t g →
      Reaches l arbitrary candidates f₀ g

theorem Steps.pos_lt (ht : l.tokens[f.progress.pos]? = some t)
    (h : Steps l arbitrary candidates f t g) : f.progress.pos < g.progress.pos := by
  cases h with
  | pass => exact Nat.lt_succ_self _
  | @take c p hc hrival hp =>
    obtain ⟨-, hf, -⟩ := fits_of_next? hc
    obtain ⟨v, h, -, -, hread⟩ := c.1.walk_of_fits ht hf hp
    have hpos := hread.pos
    simp only [List.length_cons] at hpos
    change f.progress.pos < p.pos
    omega

variable {steps : Nat}

theorem reaches_of_gather_ok (hf : Reaches l arbitrary candidates f₀ f)
    (hn : l.tokens.length ≤ f.progress.pos + steps)
    (h : gather l arbitrary candidates steps f = .ok g) :
    Reaches l arbitrary candidates f₀ g ∧ l.tokens.length ≤ g.progress.pos := by
  induction steps generalizing f with
  | zero =>
    obtain rfl := Except.ok.inj h
    exact ⟨hf, hn⟩
  | succ steps ih =>
    rw [gather] at h
    split at h
    · rename_i hnone
      obtain rfl := Except.ok.inj h
      exact ⟨hf, List.getElem?_eq_none_iff.mp hnone⟩
    · rename_i t ht
      split at h
      · rename_i f' hstep
        have hsteps := step_eq_ok_iff.mp hstep
        -- the step has read its token, so the steps that are left are still enough
        have hpos := hsteps.pos_lt ht
        exact ih (hf.tail ht hsteps) (by omega) h
      · simp at h

theorem reaches_of_gather_error (hf : Reaches l arbitrary candidates f₀ f)
    (h : gather l arbitrary candidates steps f = .error miss) :
    ∃ g t q, Reaches l arbitrary candidates f₀ g ∧ l.tokens[g.progress.pos]? = some t ∧
      Halts l arbitrary candidates g t miss q := by
  induction steps generalizing f with
  | zero => simp [gather] at h
  | succ steps ih =>
    rw [gather] at h
    split at h
    · simp at h
    · rename_i t ht
      split at h
      · rename_i f' hstep
        exact ih (hf.tail ht (step_eq_ok_iff.mp hstep)) h
      · rename_i miss' hstep
        obtain rfl := Except.error.inj h
        obtain ⟨q, hq⟩ := step_eq_error_iff.mp hstep
        exact ⟨f, t, q, hf, ht, hq⟩

/-- With steps enough for all tokens, the loop goes on from every state that it reaches. -/
theorem gather_of_reaches (hn : l.tokens.length ≤ f₀.progress.pos + steps)
    (h : Reaches l arbitrary candidates f₀ f) :
    ∃ rest, gather l arbitrary candidates steps f₀ = gather l arbitrary candidates rest f ∧
      l.tokens.length ≤ f.progress.pos + rest := by
  induction h with
  | refl => exact ⟨steps, rfl, hn⟩
  | @tail f g t _ ht hs ih =>
    obtain ⟨rest, hrest, hlen⟩ := ih
    have hlt := (List.getElem?_eq_some_iff.mp ht).1
    have hpos := hs.pos_lt ht
    cases rest with
    | zero => omega
    | succ rest =>
      refine ⟨rest, ?_, by omega⟩
      rw [hrest, gather, ht]
      dsimp only
      rw [step_eq_ok_iff.mpr hs]

theorem gather_eq_ok_iff (hn : l.tokens.length ≤ f₀.progress.pos + steps) :
    gather l arbitrary candidates steps f₀ = .ok g ↔
      Reaches l arbitrary candidates f₀ g ∧ l.tokens.length ≤ g.progress.pos := by
  constructor
  · exact reaches_of_gather_ok .refl hn
  · rintro ⟨hr, hend⟩
    obtain ⟨rest, hrest, -⟩ := gather_of_reaches hn hr
    rw [hrest]
    cases rest with
    | zero => rfl
    | succ rest => rw [gather, List.getElem?_eq_none hend]

theorem gather_eq_error_iff (hn : l.tokens.length ≤ f₀.progress.pos + steps) :
    gather l arbitrary candidates steps f₀ = .error miss ↔
      ∃ g t q, Reaches l arbitrary candidates f₀ g ∧ l.tokens[g.progress.pos]? = some t ∧
        Halts l arbitrary candidates g t miss q := by
  constructor
  · exact reaches_of_gather_error .refl
  · rintro ⟨g, t, q, hr, ht, hq⟩
    obtain ⟨rest, hrest, hlen⟩ := gather_of_reaches hn hr
    have hlt := (List.getElem?_eq_some_iff.mp ht).1
    rw [hrest]
    cases rest with
    | zero => omega
    | succ rest =>
      rw [gather, ht]
      dsimp only
      rw [step_eq_error_iff.mpr ⟨q, hq⟩]

end Flags

end TasScript
