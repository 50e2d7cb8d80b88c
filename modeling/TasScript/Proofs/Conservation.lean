import TasScript.Catalogue.Basic
import TasScript.Proofs.Account

/-! No token of an accepted invocation is lost or counted twice: it is bound to a slot that no other
token writes, or it is kept once among the extra ones. -/

namespace TasScript

variable {s : Schema} {g : Ledger} {tokens : List Token} {values : List (Option Value)}
  {extra : List Token}

/-- Each token has one entry in `g`: the slot it alone is bound to, or a place among the extra. -/
structure Ledger.Settles (g : Ledger) (s : Schema) (tokens : List Token)
    (values : List (Option Value)) (extra : List Token) : Prop where
  tokens_eq : g.tokens = tokens
  extra_eq : g.extra = extra
  fill_eq : g.fill (List.replicate s.slotCount none) = values
  once : g.slots.Nodup
  held : ∀ t i v, .bound t i v ∈ g → values[i]? = some (some v) ∧
    ∃ slot, s.slots[i]? = some slot ∧ slot.bind t = .ok v
  source : ∀ (i : Nat) (v : Value), values[i]? = some (some v) → ∃ t, .bound t i v ∈ g

theorem Ledger.Settles.slot_lt (h : g.Settles s tokens values extra) {i : Nat}
    (hi : i ∈ g.slots) : i < s.slotCount := by
  obtain ⟨t, v, he⟩ := mem_slots_iff.mp hi
  obtain ⟨_, slot, hs, _⟩ := h.held t i v he
  have hlt := (List.getElem?_eq_some_iff.mp hs).1
  rwa [Schema.length_slots] at hlt

theorem Ledger.Settles.count (h : g.Settles s tokens values extra) :
    values.countP Option.isSome + extra.length = tokens.length := by
  let empty : List (Option Value) := List.replicate s.slotCount none
  have hempty : ∀ i ∈ g.slots, empty[i]? = some none :=
    fun i hi => List.getElem?_replicate_of_lt (h.slot_lt hi)
  have hzero : empty.countP Option.isSome = 0 := by simp [empty, List.countP_replicate]
  have hfill := countP_fill empty h.once hempty
  have hlen := length_slots_add_extra g
  rw [h.fill_eq, hzero] at hfill
  rw [← h.extra_eq, ← h.tokens_eq, length_tokens]
  omega

theorem Schema.Accounts.settles (h : s.Accounts g tokens values extra) :
    g.Settles s tokens values extra where
  tokens_eq := h.tokens_eq
  extra_eq := h.extra_eq
  fill_eq := h.fill_eq
  once := h.parses.slots_nodup
  held := by
    intro t i v he
    refine ⟨?_, h.parses.exists_slot he⟩
    have hi : i < s.slotCount := h.parses.slot_lt (Ledger.mem_slots_iff.mpr ⟨t, v, he⟩)
    rw [← h.fill_eq]
    exact Ledger.fill_of_mem _ h.parses.slots_nodup (by simpa using hi) he
  source := by
    intro i v hv
    rw [← h.fill_eq] at hv
    exact Ledger.mem_of_fill h.parses.slots_nodup hv

theorem Ledger.settles_nil (s : Schema) :
    Settles [] s [] (List.replicate s.slotCount none) [] where
  tokens_eq := rfl
  extra_eq := rfl
  fill_eq := rfl
  once := .nil
  held := by
    intro t i v he
    simp at he
  source := by
    intro i v hv
    simp [List.getElem?_replicate] at hv

/-- In fixed order the bound tokens come first, to slots in rising order, and the rest is extra. -/
def Ledger.InOrder (g : Ledger) (tokens extra : List Token) : Prop :=
  ∃ b : Ledger, g = b ++ .ofExtra extra ∧ tokens = b.tokens ++ extra ∧ b.extra = [] ∧
    b.slots.Pairwise (· < ·)

theorem Schema.Accounts.inOrder (h : s.Accounts g tokens values extra)
    (hs : s.fixedOrder = true) : g.InOrder tokens extra := by
  have htokens := h.tokens_eq
  have hextra := h.extra_eq
  cases h.parses with
  | @ordered b ts _ hd =>
    rw [Ledger.extra_append, Ledger.extra_ofExtra, hd.extra_eq_nil, List.nil_append] at hextra
    subst hextra
    rw [Ledger.tokens_append, Ledger.tokens_ofExtra] at htokens
    exact ⟨b, rfl, htokens.symm, hd.extra_eq_nil, hd.slots_increasing⟩
  | flags hf _ _ => simp [hs] at hf

/-- Conservation of tokens. The ledger lists the tokens as they were given, each bound or kept, and
its entries for slots are the only source of the values. -/
theorem Schema.tokens_conserved (s : Schema) (tokens : List Token) (name : Option Token)
    (values : List (Option Value)) (extra : List Token)
    (h : (s.matchTokens tokens name).verdict = .bound values extra) :
    ∃ g : Ledger, g.Settles s tokens values extra ∧
      values.countP Option.isSome + extra.length = tokens.length ∧
      (s.fixedOrder = true → g.InOrder tokens extra) ∧
      extra.Sublist tokens ∧
      (extra ≠ [] → s.allowArbitraryArguments = true) := by
  rcases walk_of_bound h with ⟨rfl, rfl, rfl⟩ | ⟨_, hw⟩
  · have hnil := Ledger.settles_nil s
    exact ⟨[], hnil, hnil.count, fun _ => ⟨[], rfl, rfl, rfl, .nil⟩, .refl _, by simp⟩
  · obtain ⟨g, hg⟩ := walk_accounts hw
    have hset := hg.settles
    refine ⟨g, hset, hset.count, hg.inOrder, ?_, hg.allowed⟩
    have hsub := g.extra_sublist
    rwa [hset.extra_eq, hset.tokens_eq] at hsub

theorem Schema.tokens_conserved_coordinates :
    let s := { Catalogue.autoaim with allowArbitraryArguments := true }
    let tokens : List Token := [⟨.number, "1.5", ⟨1, 8, 11⟩⟩, ⟨.number, "-2", ⟨1, 12, 14⟩⟩,
      ⟨.number, "3", ⟨1, 15, 16⟩⟩, ⟨.number, "40", ⟨1, 17, 19⟩⟩, ⟨.string, "now", ⟨1, 20, 23⟩⟩,
      ⟨.string, "cubic", ⟨1, 24, 29⟩⟩]
    let values := [none, none, none, some (.amount (.real 1.5)), some (.amount (.real (-2))),
      some (.amount (.real 3)), some (.amount (.whole 40)), none]
    (s.matchTokens tokens none).verdict = .bound values (tokens.drop 4) ∧
      ∃ g : Ledger, g.Settles s tokens values (tokens.drop 4) ∧
        g.InOrder tokens (tokens.drop 4) := by
  intro s tokens values
  have h : (s.matchTokens tokens none).verdict = .bound values (tokens.drop 4) := by
    decide +kernel
  obtain ⟨g, hg, _, hord, _⟩ := tokens_conserved s tokens none values (tokens.drop 4) h
  exact ⟨h, g, hg, hord rfl⟩

end TasScript
