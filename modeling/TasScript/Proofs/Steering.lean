import TasScript.Catalogue.Basic
import TasScript.Proofs.Declining
import TasScript.Proofs.Naming
import TasScript.Proofs.Untouched

/-! What a line of `look` or `move` steers by. Both grammars offer the keyword `stop`, else an angle
with its unit, else one or two directions; all of it is optional, yet every accepted line has chosen
one form and given it in full. -/

namespace TasScript

namespace Node

variable {l : Line} {slot : Nat} {p q : Progress} {s : Slot} {cs os ns : List Node}

/-- An optional node whose alternative is optional throughout binds its own slot, or its alternative
is walked: such an alternative does not fail where it could be passed over. -/
theorem Walks.of_optional (hne : os ≠ []) (hos : ∀ n ∈ os, n.slot.required = false)
    (h : Walks l slot p (mk s cs os :: ns) (.done q)) :
    (∃ v r, Walks l (slot + 1) (p.bind slot v) cs (.done r) ∧
        Walks l (slot + (mk s cs os).size) r ns (.done q)) ∨
      ∃ r, Walks l (slot + 1 + slotCount cs) p os (.done r) ∧
        Walks l (slot + (mk s cs os).size) r ns (.done q) := by
  cases h with
  | bound hb hc hn =>
    obtain ⟨t, v, -, -, rfl⟩ := Line.bindHead_eq_ok hb
    exact .inl ⟨v, _, hc, hn⟩
  | skipped => exact absurd rfl hne
  | otherwise _ _ _ ho hn => exact .inr ⟨_, ho, hn⟩
  | passed _ _ _ ho hi hx =>
    -- the alternative would have failed softly where it began
    rcases ho.touches hos rfl with hunit | hrange | hindex
    · simp [Mismatch.isSoft, hunit] at hi
    · simp [Mismatch.isSoft, hrange] at hi
    · omega

theorem Walks.eq_of_declined {t : Token} (ht : l.tokens[p.pos]? = some t) (hd : s.Declines t)
    (h : Walks l slot p [leaf s] (.done q)) : q = p := by
  rcases h.of_leaf with ⟨u, v, hu, hv, -⟩ | ⟨-, -, h⟩
  · obtain rfl := Option.some.inj (ht.symm.trans hu)
    exact absurd hd (Slot.not_declines_of_bind hv)
  · exact h.of_nil

theorem Walks.values_of_leaf (hfree : p.values[slot]? = some none)
    (h : Walks l slot p [leaf s] (.done q)) : ∃ o, q.values = p.values.set slot o := by
  rcases h.of_leaf with ⟨-, v, -, -, h⟩ | ⟨-, -, h⟩
  · obtain rfl := h.of_nil
    exact ⟨some v, rfl⟩
  · obtain rfl := h.of_nil
    obtain ⟨hlt, hnone⟩ := List.getElem?_eq_some_iff.mp hfree
    exact ⟨none, by rw [← hnone, List.set_getElem_self]⟩

end Node

open Node

namespace Match

/-- A slot under the key holds a value. -/
def binds (m : Match) (key : String) : Bool := (m.named.get? key).isSome

/-- A slot of the keyword holds a value. -/
def bindsKeyword (m : Match) (keyword : String) : Bool :=
  match m.schema with
  | none => false
  | some s => (s.slots.zip m.values).any fun c => c.1.text == some keyword && c.2.isSome

end Match

namespace Catalogue

def directionNodes : List Node :=
  [.leaf (Slot.word "direction").needed, .leaf (Slot.word "direction2")]

def degrees (key : String) : Slot := { Slot.number key with unit := some "deg" }

def pitchNode : Node := .mk (degrees "pitch") [.leaf (degrees "yaw").needed] directionNodes

def lookDuration : Slot := Slot.ticks.describedAs "Look duration, in ticks"

theorem arguments_look :
    look.arguments = [.mk (.keyword "stop") [] [pitchNode], .leaf lookDuration] := rfl

def angleNode : Node := .mk (degrees "angle") [] directionNodes

def scaleSlot : Slot := (Slot.number "scale").describedAs "Scale factor"

theorem arguments_move :
    move.arguments = [.mk (.keyword "stop") [] [angleNode, .leaf scaleSlot]] := rfl

variable {l : Line} {p q : Progress} {slot : Nat}

theorem directions_of_walk (hfree : p.values[slot + 1]? = some none)
    (h : Walks l slot p directionNodes (.done q)) :
    ∃ v o, q.values = (p.values.set slot (some v)).set (slot + 1) o := by
  obtain ⟨-, v, -, -, h⟩ := h.of_needed rfl
  have hnext : (p.bind slot v).values[slot + 1]? = some none := by
    rw [Progress.bind, List.getElem?_set_ne (Nat.ne_of_lt (Nat.lt_succ_self slot)), hfree]
  obtain ⟨o, ho⟩ := h.values_of_leaf hnext
  exact ⟨v, o, ho⟩

/-- A number in degrees is given, or directions are, or neither where the next token is written as a
number without being one. -/
theorem degrees_of_walk {key : String} {cs ns : List Node} {t : Token}
    (ht : l.tokens[p.pos]? = some t)
    (h : Walks l slot p (.mk (degrees key) cs directionNodes :: ns) (.done q)) :
    (∃ v r, Walks l (slot + 1) (p.bind slot v) cs (.done r) ∧
        Walks l (slot + (Node.mk (degrees key) cs directionNodes).size) r ns (.done q)) ∨
      (∃ r, Walks l (slot + 1 + slotCount cs) p directionNodes (.done r) ∧
        Walks l (slot + (Node.mk (degrees key) cs directionNodes).size) r ns (.done q)) ∨
      t.amount? = none ∧
        Walks l (slot + (Node.mk (degrees key) cs directionNodes).size) p ns (.done q) := by
  cases h with
  | bound hb hc hn =>
    obtain ⟨t, v, -, -, rfl⟩ := Line.bindHead_eq_ok hb
    exact .inl ⟨v, _, hc, hn⟩
  | otherwise _ _ _ ho hn => exact .inr (.inl ⟨_, ho, hn⟩)
  | passed hb hsoft _ _ _ _ _ hn =>
    have hnone : t.amount? = none :=
      (Slot.declines_number rfl rfl).mp (Line.declines_of_bindHead hb hsoft ht)
    exact .inr (.inr ⟨hnone, hn⟩)

/-- The first token of a line of `look` has decided on a form, and only the duration is left
open. -/
theorem values_of_look {t : Token} (ht : l.tokens[0]? = some t) (hread : 0 < q.pos)
    (h : Walks l 0 (.start 6) look.arguments (.done q)) :
    ∃ d, (∃ v, q.values = [some v, none, none, none, none, d]) ∨
      (∃ v w, q.values = [none, some v, some w, none, none, d]) ∨
      ∃ v o, q.values = [none, none, none, some v, o, d] := by
  rw [arguments_look] at h
  rcases h.of_optional (List.cons_ne_nil _ _) (by decide) with ⟨v, r, hc, hn⟩ | ⟨r, ho, hn⟩
  · obtain rfl := hc.of_nil
    obtain ⟨d, hd⟩ := hn.values_of_leaf rfl
    exact ⟨d, .inl ⟨v, hd⟩⟩
  · rcases degrees_of_walk ht ho with ⟨v, r, hyaw, hnil⟩ | ⟨r, hdir, hnil⟩ | ⟨hnone, hnil⟩
    · obtain rfl := hnil.of_nil
      obtain ⟨-, w, -, -, hyaw⟩ := hyaw.of_needed rfl
      obtain rfl := hyaw.of_nil
      obtain ⟨d, hd⟩ := hn.values_of_leaf rfl
      exact ⟨d, .inr (.inl ⟨v, w, hd⟩)⟩
    · obtain rfl := hnil.of_nil
      obtain ⟨v, o, hvalues⟩ := directions_of_walk rfl hdir
      obtain ⟨d, hd⟩ := hn.values_of_leaf (by rw [hvalues]; rfl)
      rw [hvalues] at hd
      exact ⟨d, .inr (.inr ⟨v, o, hd⟩)⟩
    · -- what is no number to the angle is none to the duration, so nothing has been read
      obtain rfl := hnil.of_nil
      obtain rfl := hn.eq_of_declined ht ((Slot.declines_number rfl rfl).mpr hnone)
      exact absurd hread (Nat.lt_irrefl 0)

theorem values_of_move {t : Token} (ht : l.tokens[0]? = some t) (hread : 0 < q.pos)
    (h : Walks l 0 (.start 5) move.arguments (.done q)) :
    (∃ v, q.values = [some v, none, none, none, none]) ∨
      (∃ v d, q.values = [none, some v, none, none, d]) ∨
      ∃ v o d, q.values = [none, none, some v, o, d] := by
  rw [arguments_move] at h
  rcases h.of_optional (List.cons_ne_nil _ _) (by decide) with ⟨v, r, hc, hn⟩ | ⟨r, ho, hn⟩
  · obtain rfl := hc.of_nil
    obtain rfl := hn.of_nil
    exact .inl ⟨v, rfl⟩
  · obtain rfl := hn.of_nil
    rcases degrees_of_walk ht ho with ⟨v, r, hc, hscale⟩ | ⟨r, hdir, hscale⟩ | ⟨hnone, hscale⟩
    · obtain rfl := hc.of_nil
      obtain ⟨d, hd⟩ := hscale.values_of_leaf rfl
      exact .inr (.inl ⟨v, d, hd⟩)
    · obtain ⟨v, o, hvalues⟩ := directions_of_walk rfl hdir
      obtain ⟨d, hd⟩ := hscale.values_of_leaf (by rw [hvalues]; rfl)
      rw [hvalues] at hd
      exact .inr (.inr ⟨v, o, d, hd⟩)
    · obtain rfl := hscale.eq_of_declined ht ((Slot.declines_number rfl rfl).mpr hnone)
      exact absurd hread (Nat.lt_irrefl 0)

theorem binds_look {m : Match} {v₀ v₁ v₂ v₃ v₄ v₅ : Option Value} (hs : m.schema = some look)
    (hv : m.values = [v₀, v₁, v₂, v₃, v₄, v₅]) :
    m.bindsKeyword "stop" = v₀.isSome ∧ m.binds "pitch" = v₁.isSome ∧
      m.binds "yaw" = v₂.isSome ∧ m.binds "direction" = v₃.isSome ∧
      m.binds "direction2" = v₄.isSome := by
  have hkeys (key : String) : m.named.get? key =
      [(some "duration", v₅), (some "direction2", v₄), (some "direction", v₃), (some "yaw", v₂),
          (some "pitch", v₁), (none, v₀)].findSome?
        fun c => if c.1 = some key then c.2 else none := by
    rw [Match.get?_named hs, hv]
    rfl
  have hstop : m.bindsKeyword "stop" =
      [(some "stop", v₀), (none, v₁), (none, v₂), (none, v₃), (none, v₄), (none, v₅)].any fun c =>
        c.1 == some "stop" && c.2.isSome := by
    rw [Match.bindsKeyword, hs, hv]
    rfl
  simp [Match.binds, hkeys, hstop, List.findSome?_cons_eq_or]

theorem binds_move {m : Match} {v₀ v₁ v₂ v₃ v₄ : Option Value} (hs : m.schema = some move)
    (hv : m.values = [v₀, v₁, v₂, v₃, v₄]) :
    m.bindsKeyword "stop" = v₀.isSome ∧ m.binds "angle" = v₁.isSome ∧
      m.binds "direction" = v₂.isSome ∧ m.binds "direction2" = v₃.isSome ∧
      m.binds "scale" = v₄.isSome := by
  have hkeys (key : String) : m.named.get? key =
      [(some "scale", v₄), (some "direction2", v₃), (some "direction", v₂), (some "angle", v₁),
        (none, v₀)].findSome? fun c => if c.1 = some key then c.2 else none := by
    rw [Match.get?_named hs, hv]
    rfl
  have hstop : m.bindsKeyword "stop" =
      [(some "stop", v₀), (none, v₁), (none, v₂), (none, v₃), (none, v₄)].any fun c =>
        c.1 == some "stop" && c.2.isSome := by
    rw [Match.bindsKeyword, hs, hv]
    rfl
  simp [Match.binds, hkeys, hstop, List.findSome?_cons_eq_or]

/-- What `look` is given: to stop, or both angles, or a direction with a second one at most. -/
def OneWayToLook (m : Match) : Prop :=
  [m.bindsKeyword "stop", m.binds "pitch" && m.binds "yaw", m.binds "direction"].count true = 1 ∧
    (m.binds "direction2" = true → m.binds "direction" = true) ∧
    m.binds "pitch" = m.binds "yaw"

/-- What `move` is given: to stop, or an angle, or a direction with a second one at most; it is
scaled only where it does not stop. -/
def OneWayToMove (m : Match) : Prop :=
  [m.bindsKeyword "stop", m.binds "angle", m.binds "direction"].count true = 1 ∧
    (m.binds "direction2" = true → m.binds "direction" = true) ∧
    (m.binds "scale" = true → m.bindsKeyword "stop" = false)

theorem walks_from_first {s : Schema} {tokens : List Token} {name : Option Token}
    (hfixed : s.fixedOrder = true) (hstrict : s.allowArbitraryArguments = false)
    (hne : tokens ≠ []) (hok : (s.matchTokens tokens name).succeeded = true)
    (hon : (s.matchTokens tokens name).isOff = false) :
    ∃ t q, (s.line tokens name).tokens[0]? = some t ∧ 0 < q.pos ∧
      Walks (s.line tokens name) 0 (.start s.slotCount) s.arguments (.done q) ∧
      (s.matchTokens tokens name).values = q.values := by
  obtain ⟨q, hq, hend, hvalues⟩ := Schema.walks_of_succeeded hfixed hstrict hne hok hon
  obtain ⟨t, ts, rfl⟩ := List.exists_cons_of_ne_nil hne
  exact ⟨t, q, rfl, Nat.lt_of_lt_of_le (Nat.succ_pos _) hend, hq, hvalues⟩

theorem oneWayToLook {tokens : List Token} {name : Option Token} (hne : tokens ≠ [])
    (hok : (look.matchTokens tokens name).succeeded = true)
    (hon : (look.matchTokens tokens name).isOff = false) :
    OneWayToLook (look.matchTokens tokens name) := by
  obtain ⟨t, q, ht, hread, hq, hvalues⟩ := walks_from_first rfl rfl hne hok hon
  have hs := look.matchTokens_schema tokens name
  unfold OneWayToLook
  obtain ⟨d, ⟨v, hv⟩ | ⟨v, w, hv⟩ | ⟨v, o, hv⟩⟩ := values_of_look ht hread hq
  · obtain ⟨hstop, hpitch, hyaw, hdir, hdir2⟩ := binds_look hs (hvalues.trans hv)
    simp [hstop, hpitch, hyaw, hdir, hdir2]
  · obtain ⟨hstop, hpitch, hyaw, hdir, hdir2⟩ := binds_look hs (hvalues.trans hv)
    simp [hstop, hpitch, hyaw, hdir, hdir2]
  · obtain ⟨hstop, hpitch, hyaw, hdir, hdir2⟩ := binds_look hs (hvalues.trans hv)
    simp [hstop, hpitch, hyaw, hdir]

theorem oneWayToMove {tokens : List Token} {name : Option Token} (hne : tokens ≠ [])
    (hok : (move.matchTokens tokens name).succeeded = true)
    (hon : (move.matchTokens tokens name).isOff = false) :
    OneWayToMove (move.matchTokens tokens name) := by
  obtain ⟨t, q, ht, hread, hq, hvalues⟩ := walks_from_first rfl rfl hne hok hon
  have hs := move.matchTokens_schema tokens name
  unfold OneWayToMove
  rcases values_of_move ht hread hq with ⟨v, hv⟩ | ⟨v, d, hv⟩ | ⟨v, o, d, hv⟩
  · obtain ⟨hstop, hangle, hdir, hdir2, hscale⟩ := binds_move hs (hvalues.trans hv)
    simp [hstop, hangle, hdir, hdir2, hscale]
  · obtain ⟨hstop, hangle, hdir, hdir2, -⟩ := binds_move hs (hvalues.trans hv)
    simp [hstop, hangle, hdir, hdir2]
  · obtain ⟨hstop, hangle, hdir, -, -⟩ := binds_move hs (hvalues.trans hv)
    simp [hstop, hangle, hdir]

/-- Every line of `look` and every line of `move` that is accepted, and more than turned off, has
chosen exactly one form. -/
theorem one_form_chosen (tokens : List Token) (name : Option Token) (hne : tokens ≠ []) :
    ((look.matchTokens tokens name).succeeded = true →
        (look.matchTokens tokens name).isOff = false →
        OneWayToLook (look.matchTokens tokens name)) ∧
      ((move.matchTokens tokens name).succeeded = true →
        (move.matchTokens tokens name).isOff = false →
        OneWayToMove (move.matchTokens tokens name)) :=
  ⟨fun hok hon => oneWayToLook hne hok hon, fun hok hon => oneWayToMove hne hok hon⟩

/-- Two directions are a form of both tools. -/
theorem one_form_chosen_directions :
    let tokens : List Token := [⟨.string, "up", ⟨0, 5, 7⟩⟩, ⟨.string, "left", ⟨0, 8, 12⟩⟩]
    tokens ≠ [] ∧ (look.matchTokens tokens none).succeeded = true ∧
      (look.matchTokens tokens none).isOff = false ∧
      (move.matchTokens tokens none).succeeded = true ∧
      (move.matchTokens tokens none).isOff = false ∧
      OneWayToLook (look.matchTokens tokens none) ∧
      OneWayToMove (move.matchTokens tokens none) := by
  intro tokens
  have hne : tokens ≠ [] := List.cons_ne_nil _ _
  have hlook : (look.matchTokens tokens none).succeeded = true := by decide +kernel
  have hlookOn : (look.matchTokens tokens none).isOff = false := by decide +kernel
  have hmove : (move.matchTokens tokens none).succeeded = true := by decide +kernel
  have hmoveOn : (move.matchTokens tokens none).isOff = false := by decide +kernel
  obtain ⟨hl, hm⟩ := one_form_chosen tokens none hne
  exact ⟨hne, hlook, hlookOn, hmove, hmoveOn, hl hlook hlookOn, hm hmove hmoveOn⟩

end Catalogue

end TasScript
