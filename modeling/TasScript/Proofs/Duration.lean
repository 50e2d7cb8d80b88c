import TasScript.Proofs.Conformance
import TasScript.Proofs.FloatOrder

/-! Durations of the catalogue. A slot that counts ticks takes a whole number that is at least one,
so every duration that a tool of the catalogue binds is positive. -/

namespace TasScript

open Float.Model

theorem unpack_one :
    (1 : Float).toModel.unpack = .finite .positive 4503599627370496 (-52) (by decide) := rfl

theorem one_le_truncated {x : Float} {n : Int} (hw : isWhole x = true)
    (hn : truncated? x = some n) (h : ¬ x < 1) : 1 ≤ n := by
  rw [lt_iff_compare_unpack, unpack_one] at h
  unfold isWhole Binary64.ofFloat at hw
  unfold truncated? Binary64.ofFloat at hn
  cases hx : x.toModel.unpack with
  | notANumber =>
    rw [hx] at hw
    exact absurd hw Bool.false_ne_true
  | infinity s =>
    rw [hx] at hw
    exact absurd hw Bool.false_ne_true
  | zero s => exact absurd (by cases s <;> rfl) (hx ▸ h)
  | finite s m e hm =>
    cases s with
    | negative => exact absurd rfl (hx ▸ h)
    | positive =>
      rw [hx] at hw hn
      dsimp only [Binary64.ofUnpacked, Binary64.isNegative] at hw hn
      by_cases he : 0 ≤ e
      · simp only [he, if_true, Option.some.injEq, Bool.false_eq_true, if_false] at hn
        have hpos : 0 < m * twoTo e.toNat := Nat.mul_pos hm (twoTo_pos _)
        omega
      · simp only [he, if_false, Option.some.injEq, Bool.false_eq_true] at hn
        -- the mantissa is a multiple of the power it is divided by, so nothing is cut off
        have hdvd : twoTo (-e).toNat ∣ m := Nat.dvd_of_mod_eq_zero (by simpa [he] using hw)
        have hpos : 0 < m / twoTo (-e).toNat := Nat.div_pos (Nat.le_of_dvd hm hdvd) (twoTo_pos _)
        omega

def Slot.countsTicks (s : Slot) : Bool :=
  decide (s.text = none ∧ s.kind = .number ∧ s.integer = true ∧ s.minimum = some 1)

theorem Slot.Conforms.ticks {s : Slot} {tokens : List Token} {v : Value}
    (hc : s.Conforms tokens v) (hs : s.countsTicks = true) :
    ∃ n, v = .amount (.whole n) ∧ 1 ≤ n := by
  obtain ⟨hx, hk, hi, hm⟩ := of_decide_eq_true hs
  cases hc with
  | keyword ht => simp [hx] at ht
  | number _ _ _ _ _ _ hb hv =>
    rw [Keeps, if_pos hi] at hv
    obtain ⟨hw, n, hn, rfl⟩ := hv
    exact ⟨n, rfl, one_le_truncated hw hn (hb.1 1 hm)⟩
  | choice _ ht => simp [hk] at ht
  | free _ ht => simp [hk] at ht

theorem countsTicks_catalogue : ∀ s ∈ catalogue, ∀ i ∈ s.durationSlot,
    ∃ slot ∈ s.slots[i]?, slot.countsTicks = true := by
  decide +kernel

theorem Match.bound_of_valueAt? {m : Match} {i : Nat} {v : Value} (h : m.valueAt? i = some v) :
    ∃ values extra, m.verdict = .bound values extra ∧ values[i]? = some (some v) := by
  rw [valueAt?_eq_some_iff] at h
  cases hm : m.verdict with
  | refused r => simp [values, hm] at h
  | off =>
    simp only [values, hm, List.getElem?_replicate] at h
    split at h <;> simp at h
  | bound vs extra => exact ⟨vs, extra, rfl, by simpa [values, hm] using h⟩

theorem Match.valueAt?_of_isOff {m : Match} {i : Nat} (h : m.isOff = true) :
    m.valueAt? i = none := by
  cases hv : m.valueAt? i with
  | none => rfl
  | some v =>
    obtain ⟨values, extra, hbound, -⟩ := bound_of_valueAt? hv
    simp [isOff, hbound] at h

namespace Schema

variable {s : Schema} {tokens : List Token} {name : Option Token}

theorem conforms_of_valueAt? {i : Nat} {v : Value}
    (h : (s.matchTokens tokens name).valueAt? i = some v) :
    ∃ slot, s.slots[i]? = some slot ∧ slot.Conforms tokens v := by
  obtain ⟨values, extra, hbound, hv⟩ := Match.bound_of_valueAt? h
  exact conforms_of_bound hbound hv

/-- The duration of a tool of the catalogue is absent or a positive number of ticks. -/
theorem duration_of_catalogue (hs : s ∈ catalogue) (tokens : List Token) (name : Option Token) :
    ∃ d, (s.matchTokens tokens name).duration = .ok d ∧ ∀ n, d = some n → 1 ≤ n := by
  unfold Match.duration
  rw [matchTokens_schema, Option.bind_some]
  cases hd : s.durationSlot with
  | none => exact ⟨none, rfl, by simp⟩
  | some i =>
    dsimp only
    cases hv : (s.matchTokens tokens name).valueAt? i with
    | none => exact ⟨none, rfl, by simp⟩
    | some v =>
      obtain ⟨slot, hslot, hc⟩ := conforms_of_valueAt? hv
      obtain ⟨slot', hslot', ht⟩ := countsTicks_catalogue s hs i hd
      obtain rfl : slot' = slot := Option.some.inj (hslot'.symm.trans hslot)
      obtain ⟨n, rfl, hn⟩ := hc.ticks ht
      exact ⟨some n, rfl, by simpa using hn⟩

end Schema

end TasScript
