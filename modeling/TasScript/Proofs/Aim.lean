import TasScript.ActiveTools
import TasScript.Catalogue.Basic
import TasScript.Proofs.Account
import TasScript.Proofs.Declining
import TasScript.Proofs.Naming

/-! What a line of `autoaim` aims at. Its nodes offer an entity or a point, but only what stands
below an optional node is required, so that a line may pass over both. -/

namespace TasScript

open Node

namespace Match

def aimKeys : List String := ["entity", "entity_index", "x", "y", "z"]

/-- The keys under which a match has bound something to aim at. -/
def aim (m : Match) : List String := aimKeys.filter fun key => (m.named.get? key).isSome

end Match

namespace Catalogue

/-- The name of an entity, or else its number. -/
def entityNode : Node :=
  .mk (.word "entity") []
    [.leaf { (Slot.number "entity_index").needed with integer := true, minimum := some 0 }]

def coordinateNodes : List Node :=
  [.leaf (Slot.number "x").needed, .leaf (Slot.number "y").needed, .leaf (Slot.number "z").needed]

def durationSlot : Slot := Slot.ticks.describedAs "Time to reach the target, in ticks"

def easingSlot : Slot := easingWord.describedAs easingText

theorem arguments_autoaim : autoaim.arguments =
    [.mk (.keyword "ent") [entityNode] coordinateNodes, .leaf durationSlot, .leaf easingSlot] := rfl

variable {l : Line} {p q : Progress} {slot : Nat}

theorem named_of_values {m : Match} {v₀ v₁ v₂ v₃ v₄ v₅ v₆ v₇ : Option Value}
    (hs : m.schema = some autoaim) (hv : m.values = [v₀, v₁, v₂, v₃, v₄, v₅, v₆, v₇]) :
    m.named.get? "entity" = v₁ ∧ m.named.get? "entity_index" = v₂ ∧ m.named.get? "x" = v₃ ∧
      m.named.get? "y" = v₄ ∧ m.named.get? "z" = v₅ := by
  have hkeys (key : String) : m.named.get? key =
      [(some "easing", v₇), (some "duration", v₆), (some "z", v₅), (some "y", v₄), (some "x", v₃),
        (some "entity_index", v₂), (some "entity", v₁), (none, v₀)].findSome? fun c =>
          if c.1 = some key then c.2 else none := by
    rw [Match.get?_named hs, hv]
    rfl
  simp [hkeys, List.findSome?_cons_eq_or]

/-- One token that is the keyword of an entity without the entity, or an easing. -/
def Aimless (tokens : List Token) : Prop :=
  ∃ t, tokens = [t] ∧ (t.isKeyword "ent" = true ∨ t.isNumber = false ∧ lower t.text ∈ easings)

theorem values_of_rest {k : Nat} {v₀ v₁ v₂ v₃ v₄ v₅ : Option Value}
    (h : Walks l 6 ⟨k, [v₀, v₁, v₂, v₃, v₄, v₅, none, none]⟩ [.leaf durationSlot, .leaf easingSlot]
      (.done q)) :
    ∃ v₆ v₇, q.values = [v₀, v₁, v₂, v₃, v₄, v₅, v₆, v₇] := by
  rcases h.of_leaf with ⟨-, v, -, -, h⟩ | ⟨-, -, h⟩ <;>
    rcases h.of_leaf with ⟨-, w, -, -, h⟩ | ⟨-, -, h⟩ <;> obtain rfl := h.of_nil
  · exact ⟨some v, some w, rfl⟩
  · exact ⟨some v, none, rfl⟩
  · exact ⟨none, some w, rfl⟩
  · exact ⟨none, none, rfl⟩

/-- Duration and easing bind nothing to aim at: what is aimed at has been bound before them. -/
theorem aim_of_rest {m : Match} {k : Nat} {v₀ v₁ v₂ v₃ v₄ v₅ : Option Value}
    (hs : m.schema = some autoaim) (hv : m.values = q.values)
    (h : Walks l 6 ⟨k, [v₀, v₁, v₂, v₃, v₄, v₅, none, none]⟩ [.leaf durationSlot, .leaf easingSlot]
      (.done q)) :
    m.aim = ([("entity", v₁), ("entity_index", v₂), ("x", v₃), ("y", v₄), ("z", v₅)].filter
      (·.2.isSome)).map (·.1) := by
  obtain ⟨v₆, v₇, hvalues⟩ := values_of_rest h
  obtain ⟨hentity, hindex, hx, hy, hz⟩ := named_of_values hs (hv.trans hvalues)
  have hkeys : Match.aimKeys =
      [("entity", v₁), ("entity_index", v₂), ("x", v₃), ("y", v₄), ("z", v₅)].map (·.1) := rfl
  rw [Match.aim, hkeys, List.filter_map]
  refine congrArg (List.map _) (List.filter_congr fun c hc => congrArg Option.isSome ?_)
  simp only [List.mem_cons, List.not_mem_nil, or_false] at hc
  rcases hc with rfl | rfl | rfl | rfl | rfl
  · exact hentity
  · exact hindex
  · exact hx
  · exact hy
  · exact hz

/-- Where no number can be read, the rest of the line is an easing. -/
theorem easing_of_rest {t : Token}
    (h : Walks l 6 p [.leaf durationSlot, .leaf easingSlot] (.done q))
    (hend : l.tokens.length ≤ q.pos) (ht : l.tokens[p.pos]? = some t) (ha : t.amount? = none) :
    t.isNumber = false ∧ lower t.text ∈ easings ∧ l.tokens.length ≤ p.pos + 1 := by
  have hlt := (List.getElem?_eq_some_iff.mp ht).1
  rcases h.of_leaf with ⟨u, v, hu, hv, -⟩ | ⟨-, -, h⟩
  · obtain rfl := Option.some.inj (ht.symm.trans hu)
    exact absurd ((Slot.declines_number rfl rfl).mpr ha) (Slot.not_declines_of_bind hv)
  · rcases h.of_leaf with ⟨u, v, hu, hv, h⟩ | ⟨-, -, h⟩
    · obtain rfl := Option.some.inj (ht.symm.trans hu)
      obtain rfl := h.of_nil
      have hchoices : easingSlot.choices = some easings := rfl
      have hmatched := Slot.not_declines_of_bind hv
      rw [Slot.declines_choice rfl rfl hchoices, not_or, Decidable.not_not] at hmatched
      exact ⟨by simpa using hmatched.1, hmatched.2, hend⟩
    · obtain rfl := h.of_nil
      omega

/-- The walk of the coordinates reads three tokens. -/
theorem coordinates_of_walk {k : Nat}
    (h : Walks l 3 ⟨k, List.replicate 8 none⟩ coordinateNodes (.done q)) :
    ∃ x y z, q = ⟨k + 3, [none, none, none, some x, some y, some z, none, none]⟩ ∧
      k + 3 ≤ l.tokens.length := by
  obtain ⟨-, x, -, -, h⟩ := h.of_needed rfl
  obtain ⟨-, y, -, -, h⟩ := h.of_needed rfl
  obtain ⟨t, z, ht, -, h⟩ := h.of_needed rfl
  obtain rfl := h.of_nil
  have hlt := (List.getElem?_eq_some_iff.mp ht).1
  exact ⟨x, y, z, rfl, hlt⟩

/-- Behind the keyword stands the entity, by name or by number, or nothing. -/
theorem entity_of_walk {v : Value}
    (h : Walks l 1 ⟨1, (List.replicate 8 none).set 0 (some v)⟩ [entityNode] (.done q)) :
    (∃ w, q = ⟨2, [some v, some w, none, none, none, none, none, none]⟩ ∧
        2 ≤ l.tokens.length) ∨
      (∃ w, q = ⟨2, [some v, none, some w, none, none, none, none, none]⟩ ∧
        2 ≤ l.tokens.length) ∨
      q = ⟨1, [some v, none, none, none, none, none, none, none]⟩ ∧
        ∀ t, l.tokens[1]? = some t → t.isNumber = true ∧ t.amount? = none := by
  cases h with
  | bound hb hc hn =>
    obtain ⟨t, w, ht, -, rfl⟩ := Line.bindHead_eq_ok hb
    obtain rfl := hc.of_nil
    obtain rfl := hn.of_nil
    have hlt := (List.getElem?_eq_some_iff.mp ht).1
    exact .inl ⟨w, rfl, hlt⟩
  | otherwise _ _ _ ho hn =>
    obtain ⟨t, w, ht, -, ho⟩ := ho.of_needed rfl
    obtain rfl := ho.of_nil
    obtain rfl := hn.of_nil
    have hlt := (List.getElem?_eq_some_iff.mp ht).1
    exact .inr (.inl ⟨w, rfl, hlt⟩)
  | passed hb hsoft _ ho hi hx _ hn =>
    obtain rfl := hn.of_nil
    refine .inr (.inr ⟨rfl, fun t ht => ⟨?_, ?_⟩⟩)
    · exact (Slot.declines_word rfl rfl rfl).mp (Line.declines_of_bindHead hb hsoft ht)
    · exact (Slot.declines_number rfl rfl).mp (ho.declines_of_failed rfl hi hx ht)

theorem eq_singleton {tokens : List Token} {t : Token} (ht : tokens[0]? = some t)
    (hlen : tokens.length ≤ 1) : tokens = [t] := by
  match tokens, ht, hlen with
  | [u], ht, _ => rw [Option.some.inj ht]

theorem aim_of_walk {m : Match} (hs : m.schema = some autoaim) (hv : m.values = q.values)
    (h : Walks l 0 (.start 8) autoaim.arguments (.done q)) (hne : l.tokens ≠ [])
    (hend : l.tokens.length ≤ q.pos) :
    2 ≤ l.tokens.length ∧
        (m.aim = ["entity"] ∨ m.aim = ["entity_index"] ∨ m.aim = ["x", "y", "z"]) ∨
      Aimless l.tokens ∧ m.aim = [] := by
  have hfirst : ∃ t, l.tokens[0]? = some t := by
    obtain ⟨t, ts, hts⟩ := List.exists_cons_of_ne_nil hne
    exact ⟨t, by rw [hts]; rfl⟩
  rw [arguments_autoaim] at h
  cases h with
  | bound hb hc hn =>
    obtain ⟨t, v, ht, hbind, rfl⟩ := Line.bindHead_eq_ok hb
    rcases entity_of_walk hc with ⟨w, rfl, htwo⟩ | ⟨w, rfl, htwo⟩ | ⟨rfl, hnumber⟩
    · exact .inl ⟨htwo, .inl (aim_of_rest hs hv hn)⟩
    · exact .inl ⟨htwo, .inr (.inl (aim_of_rest hs hv hn))⟩
    · have hone : l.tokens.length ≤ 1 := by
        cases hu : l.tokens[1]? with
        | none => exact List.getElem?_eq_none_iff.mp hu
        | some u =>
          obtain ⟨hnum, hnone⟩ := hnumber u hu
          obtain ⟨hword, -⟩ := easing_of_rest hn hend hu hnone
          simp [hnum] at hword
      have hent : t.isKeyword "ent" = true := by
        have hmatched := Slot.not_declines_of_bind hbind
        rw [Slot.declines_keyword rfl] at hmatched
        simpa using hmatched
      exact .inr ⟨⟨t, eq_singleton ht hone, .inl hent⟩, aim_of_rest hs hv hn⟩
  | otherwise _ _ _ ho hn =>
    obtain ⟨x, y, z, rfl, hthree⟩ := coordinates_of_walk ho
    exact .inl ⟨by omega, .inr (.inr (aim_of_rest hs hv hn))⟩
  | passed hb hsoft _ ho hi hx _ hn =>
    obtain ⟨t, ht⟩ := hfirst
    have hnone : t.amount? = none :=
      (Slot.declines_number rfl rfl).mp (ho.declines_of_failed rfl hi hx ht)
    obtain ⟨hword, heasing, hone⟩ := easing_of_rest hn hend ht hnone
    exact .inr ⟨⟨t, eq_singleton ht hone, .inr ⟨hword, heasing⟩⟩, aim_of_rest hs hv hn⟩

/-- What a line of `autoaim` that is accepted has bound to aim at: the name of an entity, its
number, all three coordinates, or nothing. It is nothing for two forms of one token, and for no
other line. -/
theorem aim_of_autoaim (tokens : List Token) (name : Option Token) (hne : tokens ≠ [])
    (hok : (autoaim.matchTokens tokens name).succeeded = true)
    (hon : (autoaim.matchTokens tokens name).isOff = false) :
    let m := autoaim.matchTokens tokens name
    (¬ Aimless tokens ↔
        m.aim = ["entity"] ∨ m.aim = ["entity_index"] ∨ m.aim = ["x", "y", "z"]) ∧
      (Aimless tokens ↔ m.aim = []) := by
  intro m
  obtain ⟨q, hq, hend, hv⟩ := Schema.walks_of_succeeded rfl rfl hne hok hon
  have hs : m.schema = some autoaim := autoaim.matchTokens_schema tokens name
  rcases aim_of_walk hs hv hq hne hend with ⟨htwo, haim⟩ | ⟨haimless, hnil⟩
  · have hnot : ¬ Aimless tokens := by
      rintro ⟨t, rfl, -⟩
      have hone : 2 ≤ 1 := htwo
      omega
    refine ⟨iff_of_true hnot haim, iff_of_false hnot fun hnil => ?_⟩
    simp [hnil] at haim
  · refine ⟨iff_of_false (fun hnot => hnot haimless) ?_, iff_of_true haimless hnil⟩
    simp [hnil]

/-- The number of an entity, and a duration behind it. -/
theorem aim_of_autoaim_index :
    let tokens : List Token :=
      [⟨.string, "ENT", ⟨1, 8, 11⟩⟩, ⟨.number, "3", ⟨1, 12, 13⟩⟩, ⟨.number, "20", ⟨1, 14, 16⟩⟩]
    let m := autoaim.matchTokens tokens none
    tokens ≠ [] ∧ m.succeeded = true ∧ m.isOff = false ∧ ¬ Aimless tokens ∧
      (m.aim = ["entity"] ∨ m.aim = ["entity_index"] ∨ m.aim = ["x", "y", "z"]) := by
  intro tokens m
  have hne : tokens ≠ [] := List.cons_ne_nil _ _
  have hok : m.succeeded = true := by decide +kernel
  have hon : m.isOff = false := by decide +kernel
  have hnot : ¬ Aimless tokens := by
    rintro ⟨t, ht, -⟩
    simp [tokens] at ht
  exact ⟨hne, hok, hon, hnot, (aim_of_autoaim tokens none hne hok hon).1.mp hnot⟩

/-- The keyword of an entity alone is accepted, and a tool is started that has nothing to aim at. -/
theorem autoaim_without_aim :
    let tokens : List Token := [⟨.string, "ent", ⟨0, 8, 11⟩⟩]
    let m := autoaim.matchTokens tokens (some ⟨.string, "autoaim", ⟨0, 0, 7⟩⟩)
    tokens ≠ [] ∧ m.succeeded = true ∧ m.isOff = false ∧ m.aim = [] ∧
      ∃ b t, ActiveTools.apply {} m 0 = .ok b ∧ b.started = some t ∧ t.name = "autoaim" := by
  intro tokens m
  exact ⟨List.cons_ne_nil _ _, by decide +kernel, by decide +kernel, by decide +kernel,
    _, _, rfl, rfl, rfl⟩

end Catalogue

end TasScript
