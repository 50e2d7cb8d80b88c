import TasScript.Decimal.Numeral
import TasScript.Text.Lower

/-! Texts with small letters for the capital ones of ASCII. They have the lower-case form of the
texts they come from and the same numeral at their start, and only letters change behind it. -/

namespace TasScript

/-- The characters with small letters for the capital ones of ASCII. -/
def small (cs : List Char) : List Char := cs.map Char.toLower

theorem toList_toLower (s : String) : s.toLower.toList = small s.toList := String.toList_map

theorem toLower_eq_of_small {s t : String} (h : small s.toList = small t.toList) :
    s.toLower = t.toLower := by
  rw [← String.toList_inj, toList_toLower, toList_toLower, h]

theorem toLower_ofList (cs : List Char) :
    (String.ofList cs).toLower = String.ofList (small cs) := by
  rw [← String.toList_inj, toList_toLower, String.toList_ofList, String.toList_ofList]

section Letters

variable {α : Type} {c : Char}

theorem toLower_eq_or (c : Char) : c.toLower = c ∨ ∃ k < 26, c = Char.ofNat (0x41 + k) := by
  by_cases h : 'A'.val ≤ c.val ∧ c.val ≤ 'Z'.val
  · have hlo : 0x41 ≤ c.toNat := UInt32.le_iff_toNat_le.mp h.1
    have hhi : c.toNat ≤ 0x5a := UInt32.le_iff_toNat_le.mp h.2
    refine .inr ⟨c.toNat - 0x41, by omega, ?_⟩
    rw [Nat.add_sub_cancel' hlo, Char.ofNat_toNat]
  · exact .inl (dif_neg h)

/-- What is the same on the 26 capital letters and their small ones is so everywhere. -/
theorem map_toLower {f : Char → α}
    (h : ∀ k < 26, f (Char.ofNat (0x41 + k)).toLower = f (Char.ofNat (0x41 + k))) (c : Char) :
    f c.toLower = f c := by
  rcases toLower_eq_or c with hc | ⟨k, hk, rfl⟩
  · rw [hc]
  · exact h k hk

theorem toLower_eq_iff {d : Char} (hd : d.isAlpha = false) : c.toLower = d ↔ c = d := by
  rcases toLower_eq_or c with hc | ⟨k, hk, rfl⟩
  · rw [hc]
  · have hcapital : ∀ k < 26, (Char.ofNat (0x41 + k)).isAlpha = true ∧
        (Char.ofNat (0x41 + k)).toLower.isAlpha = true := by decide +kernel
    constructor
    · rintro rfl
      exact absurd ((hcapital k hk).2.symm.trans hd) (by decide)
    · rintro rfl
      exact absurd ((hcapital k hk).1.symm.trans hd) (by decide)

theorem toLower_eq_self {f : Char → Bool} (h : ∀ k < 26, f (Char.ofNat (0x41 + k)) = false)
    (hc : f c = true) : c.toLower = c := by
  rcases toLower_eq_or c with hlow | ⟨k, hk, rfl⟩
  · exact hlow
  · simp [h k hk] at hc

end Letters

section Lower

theorem isCased_toLower (c : Char) : isCased c.toLower = isCased c :=
  map_toLower (by decide +kernel) c

theorem isCaseIgnorable_toLower (c : Char) : isCaseIgnorable c.toLower = isCaseIgnorable c :=
  map_toLower (by decide +kernel) c

theorem lowerChar_toLower (c : Char) : lowerChar c.toLower = lowerChar c :=
  map_toLower (by decide +kernel) c

theorem isSigma_toLower (c : Char) : c.toLower.toNat = 0x3a3 ↔ c.toNat = 0x3a3 :=
  decide_eq_decide.mp (map_toLower (f := fun c => decide (c.toNat = 0x3a3)) (by decide +kernel) c)

theorem casedNext_small (cs : List Char) : casedNext (small cs) = casedNext cs := by
  induction cs with
  | nil => rfl
  | cons c cs ih =>
    change casedNext (c.toLower :: small cs) = casedNext (c :: cs)
    simp only [casedNext, isCaseIgnorable_toLower, isCased_toLower, ih]

theorem lowerAfter_small (before cs : List Char) :
    lowerAfter (small before) (small cs) = lowerAfter before cs := by
  induction cs generalizing before with
  | nil => rfl
  | cons c cs ih =>
    change lowerAfter (small before) (c.toLower :: small cs) = lowerAfter before (c :: cs)
    simp only [lowerAfter, lowerSigma, casedNext_small, isSigma_toLower, lowerChar_toLower]
    exact congrArg _ (ih (c :: before))

theorem lower_toLower (s : String) : lower s.toLower = lower s := by
  have hs : lowerAfter [] (small s.toList) = lowerAfter [] s.toList := lowerAfter_small [] s.toList
  rw [lower, lower, toList_toLower, hs]

/-- No image of a letter beyond ASCII is a capital of ASCII. -/
theorem le_lowerInRuns {n : Nat} {runs : List (Nat × Nat × Nat × Nat)}
    (h : ∀ r ∈ runs, 0x5b ≤ r.2.2.2) (hn : 0x5b ≤ n) : 0x5b ≤ lowerInRuns n runs := by
  induction runs with
  | nil => exact hn
  | cons r runs ih =>
    obtain ⟨first, last, step, image⟩ := r
    have himage : 0x5b ≤ image := h _ List.mem_cons_self
    unfold lowerInRuns
    split
    · omega
    · exact ih fun r hr => h r (List.mem_cons_of_mem _ hr)

theorem toLower_toLower (c : Char) : c.toLower.toLower = c.toLower :=
  map_toLower (by decide) c

theorem toLower_ofNat {n : Nat} (h : 0x5b ≤ n) : (Char.ofNat n).toLower = Char.ofNat n := by
  rcases toLower_eq_or (Char.ofNat n) with hlow | ⟨k, hk, heq⟩
  · exact hlow
  · have hn : (Char.ofNat n).toNat = n ∨ (Char.ofNat n).toNat = 0 := by
      by_cases hvalid : n.isValidChar
      · have hchar : Char.ofNat n = Char.ofNatAux n hvalid := dif_pos hvalid
        exact .inl (congrArg Char.toNat hchar)
      · have hchar : Char.ofNat n = Char.ofNat 0 := dif_neg hvalid
        exact .inr (congrArg Char.toNat hchar)
    have hcapital : ∀ k < 26, (Char.ofNat (0x41 + k)).toNat = 0x41 + k := by decide
    rw [heq, hcapital k hk] at hn
    omega

theorem toLower_of_mem_lowerChar {c d : Char} (h : d ∈ lowerChar c) : d.toLower = d := by
  have hruns : ∀ r ∈ lowerRuns, 0x5b ≤ r.2.2.2 := by decide +kernel
  unfold lowerChar at h
  split at h
  · obtain rfl := List.mem_singleton.mp h
    exact toLower_toLower c
  · split at h
    · simp only [List.mem_cons, List.not_mem_nil, or_false] at h
      rcases h with rfl | rfl
      · decide
      · exact toLower_ofNat (by decide)
    · obtain rfl := List.mem_singleton.mp h
      exact toLower_ofNat (le_lowerInRuns hruns (by omega))

theorem small_lowerAfter (before cs : List Char) :
    small (lowerAfter before cs) = lowerAfter before cs := by
  induction cs generalizing before with
  | nil => rfl
  | cons c cs ih =>
    have hhead : small (if c.toNat = 0x3a3 then [lowerSigma before cs] else lowerChar c) =
        if c.toNat = 0x3a3 then [lowerSigma before cs] else lowerChar c := by
      split
      · unfold lowerSigma
        split <;> decide
      · exact (List.map_congr_left fun _ => toLower_of_mem_lowerChar).trans (List.map_id _)
    rw [lowerAfter, small, List.map_append]
    change small _ ++ small _ = _
    rw [hhead, ih (c :: before)]

/-- No lower-case form holds a capital letter of ASCII. -/
theorem toLower_lower (s : String) : (lower s).toLower = lower s := by
  rw [lower, toLower_ofList, small_lowerAfter]

end Lower

section Numerals

open Numeral

theorem isDigit_toLower (c : Char) : isDigit c.toLower = isDigit c :=
  map_toLower (by decide +kernel) c

theorem toLower_of_isDigit {c : Char} (h : isDigit c = true) : c.toLower = c :=
  toLower_eq_self (by decide +kernel) h

theorem isSign_toLower (c : Char) : isSign c.toLower = isSign c :=
  map_toLower (by decide +kernel) c

theorem toLower_of_isSign {c : Char} (h : isSign c = true) : c.toLower = c :=
  toLower_eq_self (by decide +kernel) h

theorem takeWhile_isDigit_small (cs : List Char) :
    (small cs).takeWhile isDigit = cs.takeWhile isDigit := by
  induction cs with
  | nil => rfl
  | cons c cs ih =>
    change (c.toLower :: small cs).takeWhile isDigit = _
    by_cases hc : isDigit c = true
    · rw [toLower_of_isDigit hc, List.takeWhile_cons_of_pos hc, List.takeWhile_cons_of_pos hc, ih]
    · have hlow : ¬ isDigit c.toLower = true := by rwa [isDigit_toLower]
      rw [List.takeWhile_cons_of_neg hlow, List.takeWhile_cons_of_neg hc]

theorem dropWhile_isDigit_small (cs : List Char) :
    (small cs).dropWhile isDigit = small (cs.dropWhile isDigit) := by
  have hdigit : isDigit ∘ Char.toLower = isDigit := funext isDigit_toLower
  rw [small, List.dropWhile_map, hdigit]
  rfl

theorem splitSign_small (cs : List Char) :
    splitSign (small cs) = ((splitSign cs).1, small (splitSign cs).2) := by
  cases cs with
  | nil => rfl
  | cons c cs =>
    change splitSign (c.toLower :: small cs) = _
    unfold splitSign
    by_cases hc : isSign c = true
    · simp only [toLower_of_isSign hc, if_pos hc]
    · simp only [isSign_toLower, if_neg hc]
      rfl

theorem splitFraction_small (cs : List Char) :
    splitFraction (small cs) = ((splitFraction cs).1, small (splitFraction cs).2) := by
  cases cs with
  | nil => rfl
  | cons c cs =>
    by_cases hc : c = '.'
    · subst hc
      change (some ((small cs).takeWhile isDigit), (small cs).dropWhile isDigit) =
        (some (cs.takeWhile isDigit), small (cs.dropWhile isDigit))
      rw [takeWhile_isDigit_small, dropWhile_isDigit_small]
    · have hlow : c.toLower ≠ '.' := mt (toLower_eq_iff rfl).mp hc
      have hnone (d : Char) (ds : List Char) (hd : d ≠ '.') :
          splitFraction (d :: ds) = (none, d :: ds) := by
        unfold splitFraction
        split
        · simp_all
        · rfl
      rw [hnone c cs hc]
      exact hnone c.toLower (small cs) hlow

theorem scan?_small (cs : List Char) :
    scan? (small cs) = (scan? cs).map fun (n, rest) => (n, small rest) := by
  simp only [scan?, splitSign_small, dropWhile_isDigit_small, splitFraction_small,
    takeWhile_isDigit_small]
  split <;> rfl

theorem dropLineBreak_small (cs : List Char) :
    dropLineBreak (small cs) = small (dropLineBreak cs) := by
  have hlast : (small cs).getLast? = some '\n' ↔ cs.getLast? = some '\n' := by
    rw [small, List.getLast?_map]
    cases cs.getLast? with
    | none => simp
    | some c => simp [toLower_eq_iff]
  unfold dropLineBreak
  by_cases h : cs.getLast? = some '\n'
  · rw [if_pos h, if_pos (hlast.mpr h), small, small, List.map_dropLast]
  · rw [if_neg h, if_neg (mt hlast.mp h)]

theorem splitNumeral?_small (cs : List Char) :
    splitNumeral? (small cs) = (splitNumeral? cs).map fun (n, rest) => (n, small rest) := by
  have hbreak : (small (dropLineBreak cs)).contains '\n' = (dropLineBreak cs).contains '\n' := by
    simp [small, toLower_eq_iff]
  unfold splitNumeral?
  rw [dropLineBreak_small, hbreak, scan?_small]
  split <;> rfl

theorem splitNumber?_toLower (s : String) :
    splitNumber? s.toLower = (splitNumber? s).map fun (x, suffix) => (x, suffix.toLower) := by
  rw [splitNumber?, toList_toLower, splitNumeral?_small, splitNumber?, Option.map_map,
    Option.map_map]
  exact congrArg (Option.map · _)
    (funext fun r => congrArg (r.1.value, ·) (toLower_ofList r.2).symm)

end Numerals

theorem toLower_toLower_text (s : String) : s.toLower.toLower = s.toLower := by
  apply toLower_eq_of_small
  rw [toList_toLower, small, small, List.map_map]
  exact List.map_congr_left fun c _ => toLower_toLower c

theorem isEmpty_toLower (s : String) : s.toLower.isEmpty = s.isEmpty :=
  Bool.eq_iff_iff.mpr
    (String.isEmpty_iff.trans (String.map_eq_empty.trans String.isEmpty_iff.symm))

end TasScript
