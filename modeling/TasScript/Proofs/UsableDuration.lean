import TasScript.Proofs.Duration
import TasScript.Proofs.Invoking
import TasScript.Proofs.NumeralValue
import TasScript.Proofs.WellFormed

/-! Durations of accepted schemas. The slot of a duration is a number, but it need neither be whole
nor have a least value, so a line that is accepted may bind one that no tool can count down from. -/

namespace TasScript

open Float.Model

theorem unpack_zero : (0 : Float).toModel.unpack = .zero .positive := rfl

theorem truncated_nonneg {x : Float} {n : Int} (h : 0 ≤ x) (hn : truncated? x = some n) :
    0 ≤ n := by
  rw [le_iff_compare_unpack, unpack_zero] at h
  unfold truncated? Binary64.ofFloat at hn
  cases hx : x.toModel.unpack with
  | notANumber =>
    rw [hx] at h
    exact absurd h Bool.false_ne_true
  | infinity s =>
    rw [hx] at hn
    exact nomatch hn
  | zero s =>
    rw [hx] at hn
    cases s <;> exact Option.some.inj hn ▸ Int.le_refl 0
  | finite s m e hm =>
    cases s with
    | negative =>
      rw [hx] at h
      exact absurd h Bool.false_ne_true
    | positive =>
      rw [hx] at hn
      obtain rfl := Option.some.inj hn
      exact Int.natCast_nonneg _

namespace Quantity

/-- The number rounded toward zero; none for what is not finite. -/
def ticks? : Quantity → Option Int
  | real x => truncated? x
  | whole n => some n

/-- The ticks of a number that is defined. -/
def counted (q : Quantity) : Except Defect Int :=
  match q.ticks? with
  | none => .error .infiniteDuration
  | some n => .ok n

/-- Why no tool can count down from a number that is defined. -/
def durationDefect? (q : Quantity) : Option Defect :=
  match q.ticks? with
  | none => some .infiniteDuration
  | some n =>
    if n < 0 then some (.invalid .tool [⟨[.field "ticks_remaining"], .belowZero⟩]) else none

theorem durationDefect?_eq_none {q : Quantity} :
    q.durationDefect? = none ↔ ∃ n : Nat, q.ticks? = some (n : Int) := by
  unfold durationDefect?
  cases q.ticks? with
  | none => simp
  | some n =>
    by_cases hn : n < 0
    · refine iff_of_false (by simp [hn]) ?_
      rintro ⟨k, hk⟩
      obtain rfl := Option.some.inj hk
      omega
    · exact iff_of_true (if_neg hn) ⟨n.toNat, congrArg some (by omega)⟩

end Quantity

namespace Slot

theorem text_of_number {s : Slot} (h : s.WellShaped) (hk : s.kind = .number) : s.text = none := by
  cases ht : s.text with
  | none => rfl
  | some text => simpa [hk] using h.keyword (by simp [ht])

theorem Conforms.numeral {s : Slot} {tokens : List Token} {v : Value} (hc : s.Conforms tokens v)
    (hk : s.kind = .number) (ht : s.text = none) :
    ∃ x, x.isNaN = false ∧ s.InBounds x ∧ s.Keeps x v := by
  cases hc with
  | keyword hx => simp [ht] at hx
  | number _ _ _ _ hs _ hb hv => exact ⟨_, isNaN_of_splitNumber? hs, hb, hv⟩
  | choice _ hw => simp [hk] at hw
  | free _ hw => simp [hk] at hw

variable {s : Slot} {x lo : Float} {v : Value} {q : Quantity} {n : Int}

theorem Keeps.exists_amount (h : s.Keeps x v) : ∃ q, v = .amount q ∧ q.ticks? = truncated? x := by
  unfold Keeps at h
  split at h
  · obtain ⟨-, n, hn, rfl⟩ := h
    exact ⟨.whole n, rfl, hn.symm⟩
  · exact ⟨.real x, h, rfl⟩

theorem Keeps.isSome_ticks? (h : s.Keeps x (.amount q)) (hi : s.integer = true) :
    q.ticks?.isSome = true := by
  rw [Keeps, if_pos hi] at h
  obtain ⟨-, n, -, hq⟩ := h
  obtain rfl := Value.amount.inj hq
  rfl

theorem Keeps.toTicks (h : s.Keeps x (.amount q)) (hx : x.isNaN = false) :
    (Value.amount q).toTicks = q.counted := by
  cases q with
  | whole n => rfl
  | real y =>
    unfold Keeps at h
    split at h
    · simp at h
    · obtain rfl : y = x := by simpa using h
      simp only [Value.toTicks, Quantity.counted, Quantity.ticks?]
      cases truncated? y with
      | some n => rfl
      | none => simp only [hx, Bool.false_eq_true, if_false]

theorem nonneg_of_inBounds (hb : s.InBounds x) (hx : x.isNaN = false) (hm : s.minimum = some lo)
    (hlo : 0 ≤ lo) (hn : truncated? x = some n) : 0 ≤ n := by
  have hle : lo ≤ x := Double.le_of_not_lt hx (Double.isNaN_of_le hlo).2 (hb.1 lo hm)
  exact truncated_nonneg (Double.le_trans hlo hle) hn

/-- A whole number that is not below the least value has nothing to be refused for. -/
theorem Keeps.durationDefect?_of_minimum (h : s.Keeps x (.amount q)) (hb : s.InBounds x)
    (hx : x.isNaN = false) (hi : s.integer = true) (hm : s.minimum = some lo) (hlo : 0 ≤ lo) :
    q.durationDefect? = none := by
  obtain ⟨n, hn⟩ := Option.isSome_iff_exists.mp (h.isSome_ticks? hi)
  obtain ⟨q', hq', hticks⟩ := h.exists_amount
  obtain rfl := Value.amount.inj hq'
  have hnonneg : 0 ≤ n := nonneg_of_inBounds hb hx hm hlo (hticks ▸ hn)
  exact Quantity.durationDefect?_eq_none.mpr ⟨n.toNat, by rw [hn, Int.toNat_of_nonneg hnonneg]⟩

end Slot

namespace Schema

variable {s : Schema} {i : Nat} {tokens : List Token} {name : Option Token} {m : Match}

theorem Accepted.duration_slot (hs : s.Accepted) (hd : s.durationSlot = some i) :
    ∃ slot, s.slots[i]? = some slot ∧ slot.kind = .number ∧ slot.text = none := by
  have hwell : s.draft.WellFormed := Draft.faults_eq_nil_iff.mp hs
  have hindex : s.draft.durationIndex = i := by simp [draft, hd]
  rcases hwell.durationIndex with hnone | ⟨j, slot, hj, hslot, hk⟩
  · omega
  · obtain rfl : j = i := by omega
    have hshape := hwell.shapes slot (List.mem_of_getElem? hslot)
    exact ⟨slot, hslot, hk, Slot.text_of_number hshape hk⟩

/-- The value in the slot of an accepted schema's duration, and what becomes of it. -/
theorem Accepted.duration (hs : s.Accepted) (hd : s.durationSlot = some i)
    (hm : s.matchTokens tokens name = m) :
    m.valueAt? i = none ∧ m.duration = .ok none ∨
      ∃ slot x q, s.slots[i]? = some slot ∧ x.isNaN = false ∧ slot.InBounds x ∧
        slot.Keeps x (.amount q) ∧ m.valueAt? i = some (.amount q) ∧
        m.duration = q.counted.map some := by
  have hindex : m.schema.bind (·.durationSlot) = some i := by
    rw [← hm, matchTokens_schema, Option.bind_some, hd]
  unfold Match.duration
  rw [hindex]
  dsimp only
  cases hv : m.valueAt? i with
  | none => exact .inl ⟨rfl, rfl⟩
  | some v =>
    obtain ⟨slot, hslot, hk, ht⟩ := hs.duration_slot hd
    obtain ⟨slot', hslot', hc⟩ := conforms_of_valueAt? (hm ▸ hv)
    obtain rfl : slot' = slot := Option.some.inj (hslot'.symm.trans hslot)
    obtain ⟨x, hx, hb, hkeeps⟩ := hc.numeral hk ht
    obtain ⟨q, rfl, -⟩ := hkeeps.exists_amount
    exact .inr ⟨slot', x, q, hslot, hx, hb, hkeeps, rfl,
      congrArg (Except.map some) (hkeeps.toTicks hx)⟩

end Schema

namespace ActiveTools

variable {a : ActiveTools} {s : Schema} {m : Match} {tick : Int}

theorem toolOf_of_none (s : Schema) (tick : Int) (h : m.duration = .ok none) :
    ∃ t, toolOf s m tick = .ok t ∧ t.remaining = none := by
  unfold toolOf
  rw [h]
  exact ⟨_, rfl, rfl⟩

theorem toolOf_of_quantity (s : Schema) (tick : Int) {q : Quantity}
    (h : m.duration = q.counted.map some) :
    (∃ d, q.durationDefect? = some d ∧ toolOf s m tick = .error d) ∨
      q.durationDefect? = none ∧ ∃ t, ∃ n : Nat, toolOf s m tick = .ok t ∧
        q.ticks? = some (n : Int) ∧ t.remaining = some n := by
  unfold toolOf Quantity.durationDefect?
  rw [h, Quantity.counted]
  cases q.ticks? with
  | none => exact .inl ⟨_, rfl, rfl⟩
  | some n =>
    by_cases hn : n < 0
    · exact .inl ⟨_, if_pos hn, if_pos hn⟩
    · exact .inr ⟨if_neg hn, _, n.toNat, if_neg hn, congrArg some (by omega), rfl⟩

section

variable {i : Nat} {tokens : List Token} {name : Option Token}

/-- An accepted schema starts no tool, or one without a duration, or what is bound decides. -/
theorem apply_outcomes (a : ActiveTools) (tick : Int) (hs : s.Accepted)
    (hreg : s.registersActiveState = true) (hd : s.durationSlot = some i)
    (hm : s.matchTokens tokens name = m) (hok : m.succeeded = true) :
    (∃ b, a.apply m tick = .ok b ∧ (s.stopsAllTools = true ∨ m.valueAt? i = none) ∧
        ∀ t, b.started = some t → m.valueAt? i = none ∧ t.remaining = none) ∨
      s.stopsAllTools = false ∧ ∃ slot x q, s.slots[i]? = some slot ∧ x.isNaN = false ∧
        slot.InBounds x ∧ slot.Keeps x (.amount q) ∧ m.valueAt? i = some (.amount q) ∧
          ((∃ d, q.durationDefect? = some d ∧ a.apply m tick = .error d) ∨
            q.durationDefect? = none ∧ ∃ b t, ∃ n : Nat, a.apply m tick = .ok b ∧
              b.started = some t ∧ q.ticks? = some (n : Int) ∧ t.remaining = some n) := by
  have hschema : m.schema = some s := hm ▸ s.matchTokens_schema tokens name
  rcases a.apply_cases tick hschema hok with
    ⟨hoff, happly⟩ | ⟨-, hstop, happly⟩ | ⟨-, hgo, -, happly⟩ | ⟨-, -, hnot, -⟩
  · have hv : m.valueAt? i = none := Match.valueAt?_of_isOff hoff
    refine .inl ⟨_, happly, .inr hv, fun t ht => ?_⟩
    simp [a.started_turnOff] at ht
  · exact .inl ⟨_, happly, .inl hstop, fun t ht => nomatch ht⟩
  · rw [happly]
    rcases hs.duration hd hm with
      ⟨hv, hdur⟩ | ⟨slot, x, q, hslot, hx, hb, hkeeps, hv, hdur⟩
    · obtain ⟨t, ht, hrem⟩ := toolOf_of_none s tick hdur
      rw [ht]
      refine .inl ⟨_, rfl, .inr hv, fun u hu => ⟨hv, ?_⟩⟩
      rwa [← Option.some.inj hu]
    · refine .inr ⟨hgo, slot, x, q, hslot, hx, hb, hkeeps, hv, ?_⟩
      rcases toolOf_of_quantity s tick hdur with
        ⟨d, hdef, ht⟩ | ⟨hdef, t, n, ht, hticks, hrem⟩
      · rw [ht]
        exact .inl ⟨d, hdef, rfl⟩
      · rw [ht]
        exact .inr ⟨hdef, _, t, n, rfl, rfl, hticks, hrem⟩
  · simp [hreg] at hnot

end

/-- What starting a tool of an accepted schema comes to: which numbers in the slot of its duration
are refused, what it starts with, and that whole numbers which are not below zero never fail. -/
theorem apply_of_accepted (s : Schema) (i : Nat) (tokens : List Token) (name : Option Token)
    (a : ActiveTools) (tick : Int) (hs : s.Accepted) (hreg : s.registersActiveState = true)
    (hd : s.durationSlot = some i) (hok : (s.matchTokens tokens name).succeeded = true) :
    let m := s.matchTokens tokens name
    (∀ d, a.apply m tick = .error d ↔ s.stopsAllTools = false ∧
        ∃ q, m.valueAt? i = some (.amount q) ∧ q.durationDefect? = some d) ∧
      (∀ b t, a.apply m tick = .ok b → b.started = some t →
        m.valueAt? i = none ∧ t.remaining = none ∨
          ∃ q, ∃ n : Nat, m.valueAt? i = some (.amount q) ∧ q.ticks? = some (n : Int) ∧
            t.remaining = some n) ∧
      ∀ slot lo, s.slots[i]? = some slot → slot.integer = true → slot.minimum = some lo → 0 ≤ lo →
        ∃ b, a.apply m tick = .ok b := by
  intro m
  rcases apply_outcomes (m := m) a tick hs hreg hd rfl hok with
    ⟨b, hb, hquiet, hstarted⟩ | ⟨hgo, slot, x, q, hslot, hx, hbounds, hkeeps, hv, hq⟩
  · refine ⟨fun d => ?_, ?_, fun _ _ _ _ _ _ => ⟨b, hb⟩⟩
    · rw [hb]
      refine iff_of_false (by simp) ?_
      rintro ⟨hgo, q, hv, -⟩
      rcases hquiet with hstop | hnone
      · simp [hstop] at hgo
      · simp [hnone] at hv
    · intro b' t hb' ht
      obtain rfl := Except.ok.inj (hb.symm.trans hb')
      exact .inl (hstarted t ht)
  · have honly : ∀ q', m.valueAt? i = some (.amount q') → q' = q := by
      intro q' hv'
      exact Value.amount.inj (Option.some.inj (hv'.symm.trans hv))
    rcases hq with ⟨d, hdef, hd⟩ | ⟨hdef, b, t, n, hb, ht, hticks, hrem⟩
    · rw [hd]
      refine ⟨fun e => ?_, fun b t hb => by simp at hb, ?_⟩
      · constructor
        · intro h
          obtain rfl := Except.error.inj h
          exact ⟨hgo, q, hv, hdef⟩
        · rintro ⟨-, q', hv', hdef'⟩
          rw [honly q' hv', hdef] at hdef'
          rw [Option.some.inj hdef']
      · intro slot' lo hslot' hint hlo hnonneg
        obtain rfl : slot' = slot := Option.some.inj (hslot'.symm.trans hslot)
        have hnone := hkeeps.durationDefect?_of_minimum hbounds hx hint hlo hnonneg
        simp [hdef] at hnone
    · refine ⟨fun e => ?_, ?_, fun _ _ _ _ _ _ => ⟨b, hb⟩⟩
      · rw [hb]
        refine iff_of_false (by simp) ?_
        rintro ⟨-, q', hv', hdef'⟩
        rw [honly q' hv', hdef] at hdef'
        exact nomatch hdef'
      · intro b' t' hb' ht'
        obtain rfl := Except.ok.inj (hb.symm.trans hb')
        obtain rfl := Option.some.inj (ht.symm.trans ht')
        exact .inr ⟨q, n, hv, hticks, hrem⟩

/-- A fraction is cut off where the tool is started. -/
theorem apply_of_accepted_fraction :
    let s : Schema :=
      { name := "crouch", fixedOrder := true, hasOff := false, registersActiveState := true,
        durationSlot := some 0, arguments := [.leaf (.number "duration")],
        expectsArguments := true, priority := 0 }
    let m := s.matchTokens [⟨.number, "2.75", ⟨0, 7, 11⟩⟩] none
    s.Accepted ∧ s.registersActiveState = true ∧ s.durationSlot = some 0 ∧ m.succeeded = true ∧
      (∀ d, apply {} m 5 ≠ .error d) ∧
      ∃ b t, apply {} m 5 = .ok b ∧ b.started = some t ∧ t.remaining = some 2 := by
  intro s m
  have hs : s.Accepted := by decide
  have hok : m.succeeded = true := by decide +kernel
  have hv : m.valueAt? 0 = some (.amount (.real 2.75)) := by decide +kernel
  obtain ⟨hfail, hstart, -⟩ := apply_of_accepted s 0 _ none {} 5 hs rfl rfl hok
  have hnever : ∀ d, apply {} m 5 ≠ .error d := by
    intro d hd
    obtain ⟨-, q, hq, hdef⟩ := (hfail d).mp hd
    obtain rfl := Value.amount.inj (Option.some.inj (hv.symm.trans hq))
    exact nomatch hdef
  obtain ⟨b, t, hb, ht⟩ : ∃ b t, apply {} m 5 = .ok b ∧ b.started = some t := ⟨_, _, rfl, rfl⟩
  refine ⟨hs, rfl, rfl, hok, hnever, b, t, hb, ht, ?_⟩
  rcases hstart b t hb ht with ⟨hnone, -⟩ | ⟨q, n, hq, hticks, hrem⟩
  · exact nomatch hnone.symm.trans hv
  · obtain rfl := Value.amount.inj (Option.some.inj (hv.symm.trans hq))
    have htwo : Quantity.ticks? (.real 2.75) = some 2 := by decide +kernel
    rw [hrem, Int.ofNat_inj.mp (Option.some.inj (hticks.symm.trans htwo))]

/-- An accepted schema and a line of it that no tool can be started from. -/
theorem accepted_duration_refused :
    let s : Schema :=
      { name := "crouch", fixedOrder := true, hasOff := false, registersActiveState := true,
        durationSlot := some 0, arguments := [.leaf (.number "duration")],
        expectsArguments := true, priority := 0 }
    let m := s.matchTokens [⟨.number, "-1", ⟨0, 7, 9⟩⟩] (some ⟨.string, "crouch", ⟨0, 0, 6⟩⟩)
    s.Accepted ∧ s.registersActiveState = true ∧ s.durationSlot = some 0 ∧ m.succeeded = true ∧
      apply {} m 0 = .error (.invalid .tool [⟨[.field "ticks_remaining"], .belowZero⟩]) := by
  intro s m
  exact ⟨by decide, rfl, rfl, by decide +kernel, rfl⟩

end ActiveTools

end TasScript
