import TasScript.Catalogue.Basic
import TasScript.Proofs.Account

/-! What a slot holds after a match fits the slot: its own keyword, a number within its bounds, or a
word among its choices, and the number or word comes from one of the tokens. -/

namespace TasScript

namespace Slot

def InBounds (s : Slot) (x : Float) : Prop :=
  (∀ lo, s.minimum = some lo → ¬ x < lo) ∧ ∀ hi, s.maximum = some hi → ¬ hi < x

/-- `v` is the number `x`, kept as a whole number exactly where the slot asks for one. -/
def Keeps (s : Slot) (x : Float) (v : Value) : Prop :=
  if s.integer then isWhole x = true ∧ ∃ n, truncated? x = some n ∧ v = .amount (.whole n)
  else v = .amount (.real x)

inductive Conforms (s : Slot) (tokens : List Token) : Value → Prop
  | keyword {text : String} : s.text = some text → Conforms s tokens (.word text)
  | number {t : Token} {x : Float} {suffix : String} {v : Value} :
      s.text = none → s.kind = .number → t ∈ tokens → t.isNumber = true →
      splitNumber? t.text = some (x, suffix) → s.acceptsUnit suffix = true → s.InBounds x →
      s.Keeps x v → Conforms s tokens v
  | choice {t : Token} {choices : List String} :
      s.text = none → s.kind = .string → s.choices = some choices → t ∈ tokens →
      t.isNumber = false → lower t.text ∈ choices → Conforms s tokens (.word (lower t.text))
  | free {t : Token} : s.text = none → s.kind = .string → s.choices = none → t ∈ tokens →
      t.isNumber = false → Conforms s tokens (.word t.text)

theorem bindAmount_eq_ok {s : Slot} {x : Float} {v : Value} (h : s.bindAmount x = .ok v) :
    s.InBounds x ∧ s.Keeps x v := by
  unfold bindAmount at h
  split at h
  · simp at h
  · rename_i hw
    split at h
    · simp at h
    · simp at h
    · rename_i hlo hhi
      obtain rfl := Except.ok.inj h
      refine ⟨⟨fun lo hs hx => ?_, fun hi hs hx => ?_⟩, ?_⟩
      · simp [hs, hx] at hlo
      · simp [hs, hx] at hhi
      · unfold Keeps
        split
        · rename_i hint
          have hwhole : isWhole x = true := by simpa [hint] using hw
          obtain ⟨n, hn⟩ := Option.isSome_iff_exists.mp (truncated?_isSome_of_isWhole hwhole)
          exact ⟨hwhole, n, hn, by simp [hn]⟩
        · rfl

theorem bindAmount_of_inBounds {s : Slot} {x : Float} (hw : s.integer = true → isWhole x = true)
    (hb : s.InBounds x) : ∃ v, s.bindAmount x = .ok v := by
  have hwhole : (s.integer && !isWhole x) = false := by
    cases hi : s.integer with
    | false => rfl
    | true => simp [hw hi]
  have hlo : s.minimum.filter (x < ·) = none := by
    simpa [Option.filter_eq_none_iff] using hb.1
  have hhi : s.maximum.filter (· < x) = none := by
    simpa [Option.filter_eq_none_iff] using hb.2
  unfold bindAmount
  rw [hwhole, hlo, hhi]
  exact ⟨_, rfl⟩

theorem bindNumber_eq_ok {s : Slot} {t : Token} {v : Value} (h : s.bindNumber t = .ok v) :
    ∃ x suffix, t.isNumber = true ∧ splitNumber? t.text = some (x, suffix) ∧
      s.acceptsUnit suffix = true ∧ s.InBounds x ∧ s.Keeps x v := by
  unfold bindNumber at h
  split at h
  · simp at h
  · rename_i x suffix hx
    split at hx
    · rename_i hn
      split at h
      · rename_i hu
        obtain ⟨hb, hk⟩ := bindAmount_eq_ok h
        exact ⟨x, suffix, hn, hx, hu, hb, hk⟩
      · simp at h
    · simp at hx

theorem conforms_of_bind {s : Slot} {t : Token} {v : Value} {tokens : List Token}
    (ht : t ∈ tokens) (h : s.bind t = .ok v) : s.Conforms tokens v := by
  unfold bind at h
  split at h
  · rename_i text hx
    split at h
    · obtain rfl := Except.ok.inj h
      exact .keyword hx
    · simp at h
  · rename_i hx hk
    obtain ⟨x, suffix, hn, hs, hu, hb, hv⟩ := bindNumber_eq_ok h
    exact .number hx hk ht hn hs hu hb hv
  · rename_i hx hk
    unfold bindWord at h
    split at h
    · simp at h
    · rename_i hn
      have hn' : t.isNumber = false := by simpa using hn
      split at h
      · rename_i hc
        obtain rfl := Except.ok.inj h
        exact .free hx hk hc ht hn'
      · rename_i choices hc
        split at h
        · rename_i hm
          obtain rfl := Except.ok.inj h
          exact .choice hx hk hc ht hn' (by simpa using hm)
        · simp at h

theorem Keeps.unique {s : Slot} {x : Float} {v w : Value} (hv : s.Keeps x v)
    (hw : s.Keeps x w) : v = w := by
  unfold Keeps at hv hw
  split at hv
  · rename_i hi
    rw [if_pos hi] at hw
    obtain ⟨-, n, hn, rfl⟩ := hv
    obtain ⟨-, m, hm, rfl⟩ := hw
    rw [Option.some.inj (hn.symm.trans hm)]
  · rename_i hi
    rw [if_neg hi] at hw
    rw [hv, hw]

/-- What a token gives a slot is settled by the slot and the token. -/
theorem Conforms.unique {s : Slot} {t : Token} {v w : Value} (hv : s.Conforms [t] v)
    (hw : s.Conforms [t] w) : v = w := by
  cases hv with
  | keyword ht =>
    cases hw with
    | keyword ht' => rw [Option.some.inj (ht.symm.trans ht')]
    | number hx => simp [hx] at ht
    | choice hx => simp [hx] at ht
    | free hx => simp [hx] at ht
  | number hx hk hu hn hs _ _ hkeeps =>
    cases hw with
    | keyword ht => simp [hx] at ht
    | number _ _ hu' _ hs' _ _ hkeeps' =>
      obtain rfl := List.mem_singleton.mp hu
      obtain rfl := List.mem_singleton.mp hu'
      obtain ⟨rfl, -⟩ := Prod.mk.inj (Option.some.inj (hs.symm.trans hs'))
      exact hkeeps.unique hkeeps'
    | choice _ hk' => simp [hk] at hk'
    | free _ hk' => simp [hk] at hk'
  | choice hx hk hc hu =>
    cases hw with
    | keyword ht => simp [hx] at ht
    | number _ hk' => simp [hk] at hk'
    | choice _ _ _ hu' => rw [List.mem_singleton.mp hu, List.mem_singleton.mp hu']
    | free _ _ hc' => simp [hc] at hc'
  | free hx hk hc hu =>
    cases hw with
    | keyword ht => simp [hx] at ht
    | number _ hk' => simp [hk] at hk'
    | choice _ _ hc' => simp [hc] at hc'
    | free _ _ _ hu' => rw [List.mem_singleton.mp hu, List.mem_singleton.mp hu']

end Slot

namespace Schema

variable {s : Schema} {tokens : List Token} {name : Option Token}

theorem length_of_bound {values : List (Option Value)} {extra : List Token}
    (h : (s.matchTokens tokens name).verdict = .bound values extra) :
    values.length = s.slotCount := by
  rcases walk_of_bound h with ⟨_, rfl, _⟩ | ⟨_, hw⟩
  · exact List.length_replicate
  · obtain ⟨g, hg⟩ := walk_accounts hw
    exact hg.length_values

theorem conforms_of_bound {values : List (Option Value)} {extra : List Token} {i : Nat} {v : Value}
    (h : (s.matchTokens tokens name).verdict = .bound values extra)
    (hv : values[i]? = some (some v)) :
    ∃ slot, s.slots[i]? = some slot ∧ slot.Conforms tokens v := by
  rcases walk_of_bound h with ⟨_, rfl, _⟩ | ⟨_, hw⟩
  · simp [List.getElem?_replicate] at hv
  · obtain ⟨g, hg⟩ := walk_accounts hw
    rw [← hg.fill_eq] at hv
    obtain ⟨t, he⟩ := Ledger.mem_of_fill hg.parses.slots_nodup hv
    obtain ⟨slot, hs, hb⟩ := hg.parses.exists_slot he
    have ht : t ∈ tokens := by
      have hm := Ledger.token_mem_tokens he
      rwa [hg.tokens_eq] at hm
    exact ⟨slot, hs, Slot.conforms_of_bind ht hb⟩

/-- Slot conformance: a match that succeeds, turned off or not, has one value for each slot, empty
or fitting the slot that has its number in pre-order. No rule on the schema is needed. -/
theorem values_conform (s : Schema) (tokens : List Token) (name : Option Token)
    (h : (s.matchTokens tokens name).succeeded = true) :
    (s.matchTokens tokens name).values.length = s.slotCount ∧ s.slots.length = s.slotCount ∧
      ∀ (i : Nat) (slot : Slot), s.slots[i]? = some slot →
        (s.matchTokens tokens name).values[i]? = some none ∨
          ∃ v, (s.matchTokens tokens name).values[i]? = some (some v) ∧
            slot.Conforms tokens v := by
  have hlen := length_slots s
  cases hv : (s.matchTokens tokens name).verdict with
  | refused r => simp [Match.succeeded, hv] at h
  | off =>
    simp only [Match.values, hv, matchTokens_schema, Option.map_some, Option.getD_some,
      List.length_replicate, true_and]
    refine ⟨hlen, fun i slot hs => .inl ?_⟩
    have hi := (List.getElem?_eq_some_iff.mp hs).1
    exact List.getElem?_replicate_of_lt (by omega)
  | bound values extra =>
    simp only [Match.values, hv]
    refine ⟨length_of_bound hv, hlen, fun i slot hs => ?_⟩
    have hi := (List.getElem?_eq_some_iff.mp hs).1
    have hl := length_of_bound hv
    cases hval : values[i]? with
    | none =>
      have := List.getElem?_eq_none_iff.mp hval
      omega
    | some o =>
      cases o with
      | none => exact .inl rfl
      | some v =>
        obtain ⟨slot', hs', hc⟩ := conforms_of_bound hv hval
        obtain rfl : slot' = slot := Option.some.inj (hs'.symm.trans hs)
        exact .inr ⟨v, rfl, hc⟩

/-- Behind the coordinate that stands for an entity, the duration is still the seventh slot. -/
theorem values_conform_coordinates :
    let tokens : List Token := [⟨.number, "1.5", ⟨1, 8, 11⟩⟩, ⟨.number, "-2", ⟨1, 12, 14⟩⟩,
      ⟨.number, "3", ⟨1, 15, 16⟩⟩, ⟨.number, "40", ⟨1, 17, 19⟩⟩, ⟨.string, "SINE", ⟨1, 20, 24⟩⟩]
    let m := Catalogue.autoaim.matchTokens tokens none
    m.succeeded = true ∧ m.values.length = 8 ∧
      ∃ slot v, Catalogue.autoaim.slots[6]? = some slot ∧ slot.key = some "duration" ∧
        m.values[6]? = some (some v) ∧ slot.Conforms tokens v := by
  intro tokens m
  have h : m.succeeded = true := by decide +kernel
  obtain ⟨hlen, _, hval⟩ := values_conform Catalogue.autoaim tokens none h
  have hbound : m.values[6]? ≠ some none := by decide +kernel
  obtain ⟨v, hv, hc⟩ := (hval 6 _ rfl).resolve_left hbound
  exact ⟨h, hlen, _, v, rfl, rfl, hv, hc⟩

end Schema

end TasScript
