import TasScript.Proofs.History

/-! A tool of the catalogue runs exactly while its last start stands and its duration lasts. The
state of the running tools is thus read off the history of the session. -/

namespace TasScript

open ActiveTools (after?)

namespace Match

variable {m : Match} {r : Schema} {tick : Int} {age : Nat}

theorem lasts_iff {d : Int} (hd : m.duration = .ok (some d)) : m.Lasts age ↔ (age : Int) < d := by
  constructor
  · exact fun h => h d hd
  · intro h e he
    obtain rfl : d = e := by simpa [hd] using he
    exact h

theorem lasts_of_succ (h : m.Lasts (age + 1)) : m.Lasts age := by
  intro d hd
  have := h d hd
  omega

theorem exists_duration (h : ¬ m.Lasts age) : ∃ d, m.duration = .ok (some d) ∧ d ≤ age := by
  obtain ⟨d, hd⟩ := Classical.not_forall.mp h
  obtain ⟨hd, hle⟩ := Classical.not_imp.mp hd
  exact ⟨d, hd, by omega⟩

theorem toolAt_remaining {d : Int} (hd : m.duration = .ok (some d)) :
    (m.toolAt r tick age).remaining = some (d - age).toNat := by
  simp [toolAt, hd, Except.toOption]

theorem after?_toolAt (h : m.Lasts (age + 1)) :
    after? (m.toolAt r tick age) = some (m.toolAt r tick (age + 1)) := by
  cases hd : m.duration with
  | error e => simp [after?, toolAt, hd, Tool.tickElapsed, Except.toOption]
  | ok o =>
    cases o with
    | none => simp [after?, toolAt, hd, Tool.tickElapsed, Except.toOption]
    | some d =>
      have hlt := h d hd
      have hsub : (d - (age : Int)).toNat - 1 = (d - ((age + 1 : Nat) : Int)).toNat := by omega
      have hpos : (d - ((age + 1 : Nat) : Int)).toNat ≠ 0 := by omega
      have hrem : (m.toolAt r tick age).tickElapsed.remaining =
          some (d - ((age + 1 : Nat) : Int)).toNat := by
        rw [Tool.tickElapsed, toolAt_remaining hd, Option.map_some, hsub]
      rw [after?, hrem, if_neg (by simpa using hpos), Tool.tickElapsed, toolAt_remaining hd,
        Option.map_some, hsub]
      simp only [toolAt, hd, Except.toOption, Option.join_some, Option.map_some]

/-- The tick on which a duration has run out is the last one of its tool. -/
theorem ends_iff (h : m.Lasts age) : (m.toolAt r tick age).tickElapsed.remaining = some 0 ↔
    m.duration = .ok (some ((age : Int) + 1)) := by
  cases hd : m.duration with
  | error e => simp [toolAt, hd, Tool.tickElapsed, Except.toOption]
  | ok o =>
    cases o with
    | none => simp [toolAt, hd, Tool.tickElapsed, Except.toOption]
    | some d =>
      have hlt := (lasts_iff hd).mp h
      rw [Tool.tickElapsed, toolAt_remaining hd]
      simp only [Option.map_some, Option.some.injEq, Except.ok.injEq]
      omega

theorem after?_toolAt_eq_none (h : m.Lasts age) (hn : ¬ m.Lasts (age + 1)) :
    after? (m.toolAt r tick age) = none := by
  obtain ⟨d, hd, hle⟩ := exists_duration hn
  have hlt := (lasts_iff hd).mp h
  have hlast : d = (age : Int) + 1 := by omega
  exact if_pos ((ends_iff h).mpr (hlast ▸ hd))

end Match

/-- What the history `h` tells about the tool that runs under the name `n`. -/
structure Tracked (n : String) (r : Schema) (h : List Exchange) (current : Option Tool) :
    Prop where
  runs : ∀ tokens tick m age, Stands n h tokens tick m age → m.Lasts age →
    current = some (m.toolAt r tick age)
  ended : ∀ tokens tick m age, Stands n h tokens tick m age → ¬ m.Lasts age → current = none
  idle : (∀ tokens tick m age, ¬ Stands n h tokens tick m age) → current = none

theorem tracked_nil (n : String) (r : Schema) : Tracked n r [] none :=
  ⟨fun _ _ _ _ h => absurd h stands_nil, fun _ _ _ _ h => absurd h stands_nil, fun _ => rfl⟩

theorem Tracked.tick {n : String} {r : Schema} {h : List Exchange} {x : Exchange}
    {old new : Option Tool} {tokens : List Token} {tick : Int} {m : Match} {k : Nat}
    (ht : Tracked n r h old) (hx : x.Moves n r old new) (he : ¬ x.Ends n)
    (hs : Stands n h tokens tick m k) :
    (m.Lasts (k + if x.isTick then 1 else 0) →
        new = some (m.toolAt r tick (k + if x.isTick then 1 else 0))) ∧
      (¬ m.Lasts (k + if x.isTick then 1 else 0) → new = none) := by
  rw [hx.stays he]
  by_cases hi : x.isTick = true
  · simp only [hi, if_true]
    by_cases hl : m.Lasts k
    · rw [ht.runs _ _ _ _ hs hl]
      exact ⟨Match.after?_toolAt, Match.after?_toolAt_eq_none hl⟩
    · rw [ht.ended _ _ _ _ hs hl]
      exact ⟨fun h => absurd (Match.lasts_of_succ h) hl, fun _ => rfl⟩
  · simp only [hi, Bool.false_eq_true, if_false, Nat.add_zero]
    exact ⟨ht.runs _ _ _ _ hs, ht.ended _ _ _ _ hs⟩

theorem Tracked.concat {n : String} {r : Schema} {h : List Exchange} {x : Exchange}
    {old new : Option Tool} (ht : Tracked n r h old) (hx : x.Moves n r old new)
    (hpos : ∀ tokens tick m, x.Starts n tokens tick m → m.Lasts 0) :
    Tracked n r (h ++ [x]) new where
  runs := by
    intro tokens tick m age hs hl
    rcases stands_concat.mp hs with ⟨hstart, rfl⟩ | ⟨he, k, hk, rfl⟩
    · exact hx.starts tokens tick m hstart
    · exact (ht.tick hx he hk).1 hl
  ended := by
    intro tokens tick m age hs hl
    rcases stands_concat.mp hs with ⟨hstart, rfl⟩ | ⟨he, k, hk, rfl⟩
    · exact absurd (hpos tokens tick m hstart) hl
    · exact (ht.tick hx he hk).2 hl
  idle := by
    intro hnone
    have hstart : ∀ tokens tick m, ¬ x.Starts n tokens tick m := fun tokens tick m hs =>
      hnone tokens tick m 0 (stands_concat.mpr (.inl ⟨hs, rfl⟩))
    by_cases he : x.Ends n
    · exact hx.ends hstart he
    · have hold : old = none := ht.idle fun tokens tick m k hk =>
        hnone tokens tick m _ (stands_concat.mpr (.inr ⟨he, k, hk, rfl⟩))
      rw [hx.stays he, hold]
      simp

namespace Tracked

variable {n : String} {r : Schema} {h : List Exchange} {current : Option Tool}

theorem isSome_iff (ht : Tracked n r h current) :
    current.isSome = true ↔ ∃ tokens tick m age, Stands n h tokens tick m age ∧ m.Lasts age := by
  constructor
  · intro hsome
    by_cases hs : ∃ tokens tick m age, Stands n h tokens tick m age
    · obtain ⟨tokens, tick, m, age, hs⟩ := hs
      refine ⟨tokens, tick, m, age, hs, Classical.byContradiction fun hl => ?_⟩
      simp [ht.ended tokens tick m age hs hl] at hsome
    · have hnone := ht.idle fun tokens tick m age hk => hs ⟨tokens, tick, m, age, hk⟩
      simp [hnone] at hsome
  · rintro ⟨tokens, tick, m, age, hs, hl⟩
    rw [ht.runs tokens tick m age hs hl, Option.isSome_some]

theorem expires_iff (ht : Tracked n r h current) :
    (∃ t, current = some t ∧ t.tickElapsed.remaining = some 0) ↔
      ∃ tokens tick m age, Stands n h tokens tick m age ∧
        m.duration = .ok (some ((age : Int) + 1)) := by
  constructor
  · rintro ⟨t, hcur, hend⟩
    obtain ⟨tokens, tick, m, age, hs, hl⟩ := ht.isSome_iff.mp (hcur ▸ rfl)
    rw [ht.runs tokens tick m age hs hl] at hcur
    obtain rfl := Option.some.inj hcur
    exact ⟨tokens, tick, m, age, hs, (Match.ends_iff hl).mp hend⟩
  · rintro ⟨tokens, tick, m, age, hs, hd⟩
    have hl : m.Lasts age := (Match.lasts_iff hd).mpr (by omega)
    exact ⟨_, ht.runs tokens tick m age hs hl, (Match.ends_iff hl).mpr hd⟩

end Tracked

end TasScript
