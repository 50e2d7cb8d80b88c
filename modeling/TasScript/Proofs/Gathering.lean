import TasScript.Proofs.FlagCourse
import TasScript.Proofs.FlagRun

/-! The loop over flags follows a run of flags: what it has read by the time it comes to a state is
a run, and the state holds what this run writes. -/

namespace TasScript

namespace Flags

variable {l : Line} {arbitrary : Bool} {candidates : List (Node × Nat)} {p : Progress}
  {f f' : Flags} {g : Ledger} {t : Token}

structure Follows (l : Line) (arbitrary : Bool) (candidates : List (Node × Nat)) (p : Progress)
    (f : Flags) (g : Ledger) : Prop where
  run : FlagRun candidates f.used g
  reads : l.Reads p g f.progress
  extra : f.extra = g.extra
  allowed : f.extra ≠ [] → arbitrary = true

theorem Follows.pass (hf : Follows l arbitrary candidates p f g)
    (ht : l.tokens[f.progress.pos]? = some t) (ha : arbitrary = true)
    (hc : ∀ c ∈ candidates, c.1.slot.fits t = false) :
    Follows l arbitrary candidates p (f.pass t) (g ++ [.kept t]) where
  run := hf.run.kept hc
  reads := hf.reads.trans ⟨Line.drop_of_getElem? ht, rfl, rfl⟩
  extra := by simp [Flags.pass, hf.extra]
  allowed := fun _ => ha

theorem Follows.take {n : Node} {i : Nat} {v : Value} {h : Ledger} {q : Progress}
    (hf : Follows l arbitrary candidates p f g) (hc : (n, i) ∈ candidates) (hi : i ∉ f.used)
    (ht : n.slot.fits t = true) (hb : n.slot.bind t = .ok v) (hd : Derives (i + 1) n.children h)
    (hr : l.Reads f.progress (.bound t i v :: h) q) :
    Follows l arbitrary candidates p (f.take n.slot i q) (g ++ .bound t i v :: h) where
  run := hf.run.taken hc hi ht hb hd
  reads := hf.reads.trans hr
  extra := by simp [Flags.take, hf.extra, hd.extra_eq_nil]
  allowed := hf.allowed

theorem missing_eq_nil :
    missing candidates f = [] ↔ ∀ c ∈ candidates, c.1.slot.required = true → c.2 ∈ f.used := by
  unfold missing
  rw [List.map_eq_nil_iff, List.filter_eq_nil_iff]
  simp

theorem Steps.follows (hf : Follows l arbitrary candidates p f g)
    (ht : l.tokens[f.progress.pos]? = some t) (hs : Steps l arbitrary candidates f t f') :
    ∃ h, Follows l arbitrary candidates p f' h := by
  cases hs with
  | pass hc ha => exact ⟨_, hf.pass ht ha hc⟩
  | @take c q hnext _ hq =>
    obtain ⟨hc, hfit, hused⟩ := fits_of_next? hnext
    obtain ⟨v, h, hb, hd, hr⟩ := c.1.walk_of_fits ht hfit hq
    exact ⟨_, hf.take hc hused hfit hb hd hr⟩

theorem Reaches.follows {f₀ : Flags} (hr : Reaches l arbitrary candidates f₀ f)
    (hf : Follows l arbitrary candidates p f₀ g) :
    ∃ h, Follows l arbitrary candidates p f h := by
  induction hr with
  | refl => exact ⟨g, hf⟩
  | tail _ ht hs ih =>
    obtain ⟨h, hf'⟩ := ih
    exact hs.follows hf' ht

end Flags

end TasScript
