import TasScript.Proofs.Gathering
import TasScript.Proofs.Judgement

/-! Every accepted invocation has a ledger that accounts for all of its tokens. Each token is bound
to a slot of its own or kept, and the values are what the bound ones have written. -/

namespace TasScript

open Node

namespace Schema

def flags (s : Schema) : List (Node × Nat) := placed 0 s.arguments

theorem slot_lt_of_mem_flags {s : Schema} {c : Node × Nat} (hc : c ∈ s.flags) :
    c.2 < s.slotCount := by
  have hrange := (mem_placed_range hc).2
  have hsize := c.1.size_pos
  unfold slotCount
  omega

/-- A reading of a whole invocation: nodes in fixed order and what is left, or a run of flags that
leaves out no required one. -/
inductive Parses (s : Schema) : Ledger → Prop
  | ordered {g : Ledger} (ts : List Token) : s.fixedOrder = true → Derives 0 s.arguments g →
      Parses s (g ++ .ofExtra ts)
  | flags {used : List Nat} {g : Ledger} : s.fixedOrder = false →
      FlagRun (placed 0 s.arguments) used g →
      (∀ c ∈ placed 0 s.arguments, c.1.slot.required = true → c.2 ∈ used) → Parses s g

variable {s : Schema} {g : Ledger} {l : Line} {p : Progress} {values : List (Option Value)}
  {extra : List Token}

theorem Parses.slots_nodup (h : s.Parses g) : g.slots.Nodup := by
  cases h with
  | ordered ts _ hd => simpa using hd.slots_nodup
  | flags _ hr _ => exact hr.slots_nodup

theorem Parses.exists_slot (h : s.Parses g) {t : Token} {i : Nat} {v : Value}
    (he : .bound t i v ∈ g) : ∃ slot, s.slots[i]? = some slot ∧ slot.bind t = .ok v := by
  have hk : ∃ k r, i = 0 + k ∧ (Node.slots s.arguments)[k]? = some r ∧ r.bind t = .ok v := by
    cases h with
    | ordered ts _ hd => exact hd.exists_slot (by simpa [Ledger.ofExtra] using he)
    | flags _ hr _ => exact hr.exists_slot he
  obtain ⟨k, r, rfl, hr, hb⟩ := hk
  exact ⟨r, by simpa [slots] using hr, hb⟩

theorem length_slots (s : Schema) : s.slots.length = s.slotCount := Node.length_slots s.arguments

theorem Parses.slot_lt (h : s.Parses g) {i : Nat} (hi : i ∈ g.slots) : i < s.slotCount := by
  obtain ⟨t, v, he⟩ := Ledger.mem_slots_iff.mp hi
  obtain ⟨slot, hs, _⟩ := h.exists_slot he
  simpa [length_slots] using (List.getElem?_eq_some_iff.mp hs).1

structure Accounts (s : Schema) (g : Ledger) (tokens : List Token)
    (values : List (Option Value)) (extra : List Token) : Prop where
  parses : s.Parses g
  tokens_eq : g.tokens = tokens
  extra_eq : g.extra = extra
  fill_eq : g.fill (List.replicate s.slotCount none) = values
  allowed : extra ≠ [] → s.allowArbitraryArguments = true

theorem Accounts.length_values {tokens : List Token} (h : s.Accounts g tokens values extra) :
    values.length = s.slotCount := by
  rw [← h.fill_eq, Ledger.length_fill, List.length_replicate]

theorem reads_start (h : l.Reads (.start s.slotCount) g p) :
    l.tokens = g.tokens ++ l.tokens.drop p.pos ∧
      p.values = g.fill (List.replicate s.slotCount none) := by
  refine ⟨?_, h.values⟩
  simpa [Progress.start] using h.tokens

theorem walkOrdered_eq_ok_iff : s.walkOrdered l = .ok (values, extra) ↔
    ∃ p, walkAll l 0 (.start s.slotCount) s.arguments = .done p ∧ values = p.values ∧
      extra = l.tokens.drop p.pos ∧ (extra ≠ [] → s.allowArbitraryArguments = true) := by
  unfold walkOrdered
  constructor
  · intro h
    split at h
    · simp at h
    · rename_i p hp
      split at h
      · rename_i hrest
        obtain ⟨rfl, rfl⟩ := Prod.mk.inj (Except.ok.inj h)
        exact ⟨p, hp, rfl, hrest.symm, by simp⟩
      · rename_i t ts hrest
        split at h
        · rename_i ha
          obtain ⟨rfl, rfl⟩ := Prod.mk.inj (Except.ok.inj h)
          exact ⟨p, hp, rfl, hrest.symm, fun _ => ha⟩
        · simp at h
  · rintro ⟨p, hp, rfl, rfl, ha⟩
    rw [hp]
    dsimp only
    split
    · rename_i hrest
      rw [hrest]
    · rename_i t ts hrest
      rw [if_pos (ha (by simp [hrest])), hrest]

theorem walkOrdered_accounts (hs : s.fixedOrder = true)
    (h : s.walkOrdered l = .ok (values, extra)) : ∃ g, s.Accounts g l.tokens values extra := by
  obtain ⟨p, hp, rfl, rfl, ha⟩ := walkOrdered_eq_ok_iff.mp h
  obtain ⟨g, hg, hread⟩ := walkAll_reading l 0 _ p s.arguments hp
  obtain ⟨htok, hval⟩ := reads_start hread
  refine ⟨g ++ .ofExtra (l.tokens.drop p.pos), .ordered _ hs hg, ?_, ?_, ?_, ha⟩
  · rw [Ledger.tokens_append, Ledger.tokens_ofExtra, ← htok]
  · rw [Ledger.extra_append, Ledger.extra_ofExtra, hg.extra_eq_nil, List.nil_append]
  · rw [Ledger.fill_append, Ledger.fill_ofExtra, hval]

def flagStart (s : Schema) : Flags := { progress := .start s.slotCount }

/-- The loop over the flags of a schema comes to the state `f`. -/
def Gathers (s : Schema) (l : Line) (f : Flags) : Prop :=
  Flags.Reaches l s.allowArbitraryArguments s.flags s.flagStart f

theorem Gathers.follows {f : Flags} (h : s.Gathers l f) :
    ∃ g, Flags.Follows l s.allowArbitraryArguments s.flags (.start s.slotCount) f g :=
  Flags.Reaches.follows h ⟨.nil, .refl _ _, rfl, by simp [flagStart]⟩

theorem walkFlags_eq : s.walkFlags l =
    match Flags.gather l s.allowArbitraryArguments s.flags l.tokens.length s.flagStart with
    | .error miss => .error miss
    | .ok f =>
      match Flags.missing s.flags f with
      | [] => .ok (f.progress.values, f.extra)
      | labels => .error (l.missAt f.progress.pos (.flagsMissing labels)) := rfl

theorem walkFlags_eq_ok_iff : s.walkFlags l = .ok (values, extra) ↔
    ∃ f, s.Gathers l f ∧ l.tokens.length ≤ f.progress.pos ∧ Flags.missing s.flags f = [] ∧
      values = f.progress.values ∧ extra = f.extra := by
  have hn : l.tokens.length ≤ s.flagStart.progress.pos + l.tokens.length := Nat.le_add_left _ _
  rw [walkFlags_eq]
  constructor
  · intro h
    split at h
    · simp at h
    · rename_i f hf
      obtain ⟨hr, hend⟩ := (Flags.gather_eq_ok_iff hn).mp hf
      split at h
      · rename_i hmissing
        obtain ⟨rfl, rfl⟩ := Prod.mk.inj (Except.ok.inj h)
        exact ⟨f, hr, hend, hmissing, rfl, rfl⟩
      · simp at h
  · rintro ⟨f, hr, hend, hmissing, rfl, rfl⟩
    rw [(Flags.gather_eq_ok_iff hn).mpr ⟨hr, hend⟩]
    dsimp only
    rw [hmissing]

theorem walkFlags_accounts (hs : s.fixedOrder = false)
    (h : s.walkFlags l = .ok (values, extra)) : ∃ g, s.Accounts g l.tokens values extra := by
  obtain ⟨f, hr, hend, hmissing, rfl, rfl⟩ := walkFlags_eq_ok_iff.mp h
  obtain ⟨g, hg⟩ := hr.follows
  obtain ⟨htok, hval⟩ := reads_start hg.reads
  refine ⟨g, .flags hs hg.run (Flags.missing_eq_nil.mp hmissing), ?_, hg.extra.symm, hval.symm,
    hg.allowed⟩
  rw [List.drop_eq_nil_of_le hend, List.append_nil] at htok
  exact htok.symm

theorem walk_accounts (h : s.walk l = .ok (values, extra)) :
    ∃ g, s.Accounts g l.tokens values extra := by
  unfold walk at h
  split at h
  · exact walkOrdered_accounts ‹_› h
  · exact walkFlags_accounts (by simpa using ‹¬ s.fixedOrder = true›) h

/-- A line that is accepted and more than turned off is walked from its first token to its last. -/
theorem walks_of_succeeded {tokens : List Token} {name : Option Token}
    (hfixed : s.fixedOrder = true) (hstrict : s.allowArbitraryArguments = false)
    (hne : tokens ≠ []) (hok : (s.matchTokens tokens name).succeeded = true)
    (hon : (s.matchTokens tokens name).isOff = false) :
    ∃ q, Walks (s.line tokens name) 0 (.start s.slotCount) s.arguments (.done q) ∧
      tokens.length ≤ q.pos ∧ (s.matchTokens tokens name).values = q.values := by
  cases hv : (s.matchTokens tokens name).verdict with
  | refused r => simp [Match.succeeded, hv] at hok
  | off => simp [Match.isOff, hv] at hon
  | bound values extra =>
    rcases walk_of_bound hv with ⟨hnil, -⟩ | ⟨-, hw⟩
    · exact absurd hnil hne
    · rw [walk_of_ordered hfixed] at hw
      obtain ⟨q, hq, rfl, rfl, ha⟩ := walkOrdered_eq_ok_iff.mp hw
      have hend : (s.line tokens name).tokens.length ≤ q.pos := by simpa [hstrict] using ha
      exact ⟨q, walks_iff.mpr hq, hend, by rw [Match.values, hv]⟩

end Schema

end TasScript
