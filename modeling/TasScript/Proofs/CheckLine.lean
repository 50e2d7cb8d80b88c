import Mathlib.Data.List.Forall2
import TasScript.Check.Coordinator
import TasScript.Proofs.Block
import TasScript.Proofs.Conformance

/-! The lines that are checks: four clauses of numbers in a fixed order, each of which may be left
out. The grammar of checks accepts these lines and no others, and its target is what they say. -/

namespace TasScript

/-- The token is a number without a unit. -/
def Token.Writes (t : Token) (x : Float) : Prop :=
  t.isNumber = true ∧ splitNumber? t.text = some (x, "")

/-- A keyword with the numbers behind it, or nothing. -/
def Clause (keyword : String) : Option (List Float) → List Token → Prop
  | none, ts => ts = []
  | some xs, ts => ∃ t us, ts = t :: us ∧ t.isKeyword keyword = true ∧
      List.Forall₂ Token.Writes us xs

def Position.coordinates (p : Position Float) : List Float := [p.x, p.y, p.z]

def Angles.directions (a : Angles Float) : List Float := [a.pitch, a.yaw]

structure CheckLine where
  position : Option (Position Float)
  angles : Option (Angles Float)
  posEpsilon : Option Float
  angEpsilon : Option Float

namespace CheckLine

/-- The clauses stand one behind the other, and no tolerance is below zero. -/
def Written (k : CheckLine) (ts : List Token) : Prop :=
  ∃ pos ang posEpsilon angEpsilon, ts = pos ++ (ang ++ (posEpsilon ++ angEpsilon)) ∧
    Clause "pos" (k.position.map Position.coordinates) pos ∧
    Clause "ang" (k.angles.map Angles.directions) ang ∧
    Clause "posepsilon" (k.posEpsilon.map fun e => [e]) posEpsilon ∧
    Clause "angepsilon" (k.angEpsilon.map fun e => [e]) angEpsilon ∧
    (∀ e, k.posEpsilon = some e → ¬ e < 0) ∧ ∀ e, k.angEpsilon = some e → ¬ e < 0

end CheckLine

def amounts (xs : List Float) : List Value := xs.map .ofReal

/-- A number under a key, with no unit and perhaps with a least value. -/
structure Gauge where
  key : String
  least : Option Float := none

namespace Gauge

def slot (g : Gauge) : Slot := { (Slot.number g.key).needed with minimum := g.least }

def Admits (g : Gauge) (x : Float) : Prop := ∀ lo, g.least = some lo → ¬ x < lo

theorem bind_slot {g : Gauge} {t : Token} {v : Value} :
    g.slot.bind t = .ok v ↔ ∃ x, t.Writes x ∧ g.Admits x ∧ v = .amount (.real x) := by
  have hbind : g.slot.bind t = g.slot.bindNumber t := rfl
  rw [hbind]
  constructor
  · intro h
    obtain ⟨x, suffix, hn, hs, hu, hb, hv⟩ := Slot.bindNumber_eq_ok h
    have hsuffix : suffix = "" := by
      simpa [Slot.acceptsUnit, Slot.unitName?, slot, Slot.needed, Slot.number] using hu
    exact ⟨x, ⟨hn, hsuffix ▸ hs⟩, hb.1, hv⟩
  · rintro ⟨x, ⟨hn, hs⟩, hx, rfl⟩
    have hb : g.slot.InBounds x := ⟨hx, fun hi h => by simp [slot, Slot.needed, Slot.number] at h⟩
    obtain ⟨v, hv⟩ := Slot.bindAmount_of_inBounds (fun h => absurd h Bool.false_ne_true) hb
    have hkeeps := (Slot.bindAmount_eq_ok hv).2
    rw [Slot.bindNumber_eq hn hs rfl, hv]
    exact congrArg Except.ok hkeeps

theorem bindAll_slots {gs : List Gauge} {ts : List Token} {vs : List Value} :
    BindAll (gs.map slot) ts vs ↔
      ∃ xs, List.Forall₂ Token.Writes ts xs ∧ List.Forall₂ Admits gs xs ∧ vs = amounts xs := by
  induction gs generalizing ts vs with
  | nil =>
    constructor
    · intro h
      cases h
      exact ⟨[], .nil, .nil, rfl⟩
    · rintro ⟨xs, hts, hgs, rfl⟩
      cases hgs
      cases hts
      exact .nil
  | cons g gs ih =>
    constructor
    · intro h
      cases h with
      | cons hv hrest =>
        obtain ⟨x, hx, hadmits, rfl⟩ := bind_slot.mp hv
        obtain ⟨xs, hts, hgs, rfl⟩ := ih.mp hrest
        exact ⟨x :: xs, .cons hx hts, .cons hadmits hgs, rfl⟩
    · rintro ⟨xs, hts, hgs, rfl⟩
      cases hgs with
      | cons hadmits hgs =>
        cases hts with
        | cons hx hts =>
          exact .cons (bind_slot.mpr ⟨_, hx, hadmits, rfl⟩) (ih.mpr ⟨_, hts, hgs, rfl⟩)

/-- A clause whose numbers are those of some `a` for which `P` holds. -/
theorem reads_slots {α : Type} {numbers : α → List Float} {P : α → Prop} {keyword : String}
    {gs : List Gauge} (hgs : ∀ xs, List.Forall₂ Admits gs xs ↔ ∃ a, P a ∧ xs = numbers a)
    {r : Option (List Value)} {ts : List Token} :
    (⟨keyword, gs.map slot⟩ : Block).Reads r ts ↔
      ∃ o : Option α, Clause keyword (o.map numbers) ts ∧ (∀ a, o = some a → P a) ∧
        r = o.map fun a => amounts (numbers a) := by
  constructor
  · intro h
    cases r with
    | none => exact ⟨none, h, by simp, rfl⟩
    | some vs =>
      obtain ⟨t, us, rfl, hk, hb⟩ := h
      obtain ⟨xs, hus, hxs, rfl⟩ := bindAll_slots.mp hb
      obtain ⟨a, ha, rfl⟩ := (hgs xs).mp hxs
      refine ⟨some a, ⟨t, us, rfl, hk, hus⟩, ?_, rfl⟩
      rintro b hb
      obtain rfl := Option.some.inj hb
      exact ha
  · rintro ⟨o, hc, ha, rfl⟩
    cases o with
    | none => exact hc
    | some a =>
      obtain ⟨t, us, rfl, hk, hus⟩ := hc
      have hadmits := (hgs _).mpr ⟨a, ha a rfl, rfl⟩
      exact ⟨t, us, rfl, hk, bindAll_slots.mpr ⟨_, hus, hadmits, rfl⟩⟩

end Gauge

def positionBlock : Block := ⟨"pos", [⟨"x", none⟩, ⟨"y", none⟩, ⟨"z", none⟩].map Gauge.slot⟩

def anglesBlock : Block := ⟨"ang", [⟨"pitch", none⟩, ⟨"yaw", none⟩].map Gauge.slot⟩

def toleranceBlock (key : String) : Block := ⟨key, [⟨key, some 0⟩].map Gauge.slot⟩

def checkBlocks : List Block :=
  [positionBlock, anglesBlock, toleranceBlock "posepsilon", toleranceBlock "angepsilon"]

section

variable {r : Option (List Value)} {ts : List Token}

theorem positionBlock_reads : positionBlock.Reads r ts ↔
    ∃ p : Option (Position Float), Clause "pos" (p.map Position.coordinates) ts ∧
      r = p.map fun p => amounts p.coordinates := by
  have hgs : ∀ xs, List.Forall₂ Gauge.Admits [⟨"x", none⟩, ⟨"y", none⟩, ⟨"z", none⟩] xs ↔
      ∃ p : Position Float, True ∧ xs = p.coordinates := by
    intro xs
    simp only [List.forall₂_cons_left_iff, List.forall₂_nil_left_iff, Gauge.Admits]
    constructor
    · rintro ⟨x, _, -, ⟨y, _, -, ⟨z, _, -, rfl, rfl⟩, rfl⟩, rfl⟩
      exact ⟨⟨x, y, z⟩, trivial, rfl⟩
    · rintro ⟨p, -, rfl⟩
      exact ⟨_, _, by simp, ⟨_, _, by simp, ⟨_, _, by simp, rfl, rfl⟩, rfl⟩, rfl⟩
  rw [positionBlock, Gauge.reads_slots hgs]
  simp

theorem anglesBlock_reads : anglesBlock.Reads r ts ↔
    ∃ a : Option (Angles Float), Clause "ang" (a.map Angles.directions) ts ∧
      r = a.map fun a => amounts a.directions := by
  have hgs : ∀ xs, List.Forall₂ Gauge.Admits [⟨"pitch", none⟩, ⟨"yaw", none⟩] xs ↔
      ∃ a : Angles Float, True ∧ xs = a.directions := by
    intro xs
    simp only [List.forall₂_cons_left_iff, List.forall₂_nil_left_iff, Gauge.Admits]
    constructor
    · rintro ⟨pitch, _, -, ⟨yaw, _, -, rfl, rfl⟩, rfl⟩
      exact ⟨⟨pitch, yaw⟩, trivial, rfl⟩
    · rintro ⟨a, -, rfl⟩
      exact ⟨_, _, by simp, ⟨_, _, by simp, rfl, rfl⟩, rfl⟩
  rw [anglesBlock, Gauge.reads_slots hgs]
  simp

theorem toleranceBlock_reads {key : String} : (toleranceBlock key).Reads r ts ↔
    ∃ e : Option Float, Clause key (e.map fun x => [x]) ts ∧ (∀ x, e = some x → ¬ x < 0) ∧
      r = e.map fun x => amounts [x] := by
  have hgs : ∀ xs, List.Forall₂ Gauge.Admits [⟨key, some 0⟩] xs ↔
      ∃ x : Float, ¬ x < 0 ∧ xs = [x] := by
    simp [List.forall₂_cons_left_iff, Gauge.Admits]
  rw [toleranceBlock, Gauge.reads_slots hgs]

end

theorem check_inBlocks : Catalogue.check.InBlocks checkBlocks where
  arguments := rfl
  nonempty := by decide
  parts := by decide
  keywords := by decide +kernel
  fixedOrder := rfl
  hasOff := rfl
  noExtra := rfl

namespace CheckLine

def readings (k : CheckLine) : List (Option (List Value)) :=
  [k.position.map fun p => amounts p.coordinates, k.angles.map fun a => amounts a.directions,
    k.posEpsilon.map fun x => amounts [x], k.angEpsilon.map fun x => amounts [x]]

def cells (k : CheckLine) : List (Option Value) := blockCells checkBlocks k.readings

theorem readsBlocks_iff {rs : List (Option (List Value))} {ts : List Token} :
    ReadsBlocks checkBlocks rs ts ↔ ∃ k : CheckLine, k.Written ts ∧ rs = k.readings := by
  constructor
  · intro h
    obtain ⟨_, _, pos, _, rfl, rfl, hpos, h⟩ := ReadsBlocks.cons_iff.mp h
    obtain ⟨_, _, ang, _, rfl, rfl, hang, h⟩ := ReadsBlocks.cons_iff.mp h
    obtain ⟨_, _, posEps, _, rfl, rfl, hposEps, h⟩ := ReadsBlocks.cons_iff.mp h
    obtain ⟨_, _, angEps, _, rfl, rfl, hangEps, h⟩ := ReadsBlocks.cons_iff.mp h
    obtain ⟨rfl, rfl⟩ := ReadsBlocks.nil_iff.mp h
    obtain ⟨p, hp, rfl⟩ := positionBlock_reads.mp hpos
    obtain ⟨a, ha, rfl⟩ := anglesBlock_reads.mp hang
    obtain ⟨d, hd, hdLeast, rfl⟩ := toleranceBlock_reads.mp hposEps
    obtain ⟨e, he, heLeast, rfl⟩ := toleranceBlock_reads.mp hangEps
    refine ⟨⟨p, a, d, e⟩, ⟨pos, ang, posEps, angEps, ?_, hp, ha, hd, he, hdLeast, heLeast⟩, rfl⟩
    rw [List.append_nil]
  · rintro ⟨k, ⟨pos, ang, posEps, angEps, rfl, hp, ha, hd, he, hdLeast, heLeast⟩, rfl⟩
    have hpos := positionBlock_reads.mpr ⟨_, hp, rfl⟩
    have hang := anglesBlock_reads.mpr ⟨_, ha, rfl⟩
    have hposEps := toleranceBlock_reads.mpr ⟨_, hd, hdLeast, rfl⟩
    have hangEps := toleranceBlock_reads.mpr ⟨_, he, heLeast, rfl⟩
    have hend := ReadsBlocks.cons hangEps .nil
    rw [List.append_nil] at hend
    exact .cons hpos (.cons hang (.cons hposEps hend))

theorem judge_iff {l : Line} {v : Verdict} : Catalogue.check.judge l = .ok v ↔
    ∃ k : CheckLine, k.Written l.tokens ∧ v = .bound k.cells [] := by
  rw [check_inBlocks.judge_iff]
  constructor
  · rintro ⟨rs, hrs, rfl⟩
    obtain ⟨k, hk, rfl⟩ := readsBlocks_iff.mp hrs
    exact ⟨k, hk, rfl⟩
  · rintro ⟨k, hk, rfl⟩
    exact ⟨k.readings, readsBlocks_iff.mpr ⟨k, hk, rfl⟩, rfl⟩

/-- The target that the line asks for, with the tolerances of the settings where it gives none. -/
def target (k : CheckLine) (tick : Int) (config : Config) (span : Option Span) : CheckTarget where
  tick := tick
  position := k.position.map fun p => p.map .ofReal
  angles := k.angles.map fun a => a.map .ofReal
  posEpsilon := .ofReal (k.posEpsilon.getD config.posEpsilon)
  angEpsilon := .ofReal (k.angEpsilon.getD config.angEpsilon)
  span := span

theorem ofMatch_cells (k : CheckLine) (tick : Int) (config : Config) (span : Option Span) :
    CheckTarget.ofMatch ⟨Coordinator.checkTool, .bound k.cells [], span, some Catalogue.check⟩
      tick config = .ok (k.target tick config span) := by
  -- one case for each choice of clauses, in which the keys of the slots are known
  rcases k with ⟨_ | ⟨x, y, z⟩, _ | ⟨pitch, yaw⟩, _ | d, _ | e⟩ <;> rfl

end CheckLine

end TasScript
