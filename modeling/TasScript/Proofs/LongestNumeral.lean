import TasScript.Proofs.NumeralValue

/-! The numeral of a text is the longest one at its start. Numerals are told here by how they are
written, apart from any scanner: a sign or none, and digits with a point behind, among or ahead of
them. -/

namespace TasScript

/-- The text is the line, with at most a line break behind it. -/
structure OnOneLine (text line : List Char) : Prop where
  ends : text = line ∨ text = line ++ ['\n']
  unbroken : '\n' ∉ line

theorem onOneLine_iff {text line : List Char} :
    OnOneLine text line ↔ line = dropLineBreak text ∧ '\n' ∉ dropLineBreak text := by
  constructor
  · rintro ⟨rfl | rfl, hline⟩
    · have hlast : text.getLast? ≠ some '\n' := fun h => hline (List.mem_of_getLast? h)
      have heq : dropLineBreak text = text := if_neg hlast
      rw [heq]
      exact ⟨rfl, hline⟩
    · have heq : dropLineBreak (line ++ ['\n']) = line := by simp [dropLineBreak]
      rw [heq]
      exact ⟨rfl, hline⟩
  · rintro ⟨rfl, hline⟩
    refine ⟨?_, hline⟩
    unfold dropLineBreak
    split
    · rename_i hlast
      obtain ⟨init, rfl⟩ := List.getLast?_eq_some_iff.mp hlast
      exact .inr (by rw [List.dropLast_concat])
    · exact .inl rfl

def AllDigits (ds : List Char) : Prop := ∀ d ∈ ds, isDigit d = true

theorem allDigits_takeWhile (cs : List Char) : AllDigits (cs.takeWhile isDigit) :=
  List.all_eq_true.mp List.all_takeWhile

theorem isDigit_point : isDigit '.' = false := by decide

namespace Numeral

theorem isSign_of_isDigit {c : Char} (h : isDigit c = true) : isSign c = false := by
  cases hs : isSign c with
  | false => rfl
  | true =>
    have hc : c = '+' ∨ c = '-' := by simpa [isSign] using hs
    rcases hc with rfl | rfl
    · exact absurd h (by decide)
    · exact absurd h (by decide)

inductive Unsigned : List Char → Prop
  | whole {ds : List Char} : ds ≠ [] → AllDigits ds → Unsigned ds
  | pointed {ds es : List Char} : ds ≠ [] → AllDigits ds → AllDigits es →
      Unsigned (ds ++ '.' :: es)
  | fraction {es : List Char} : es ≠ [] → AllDigits es → Unsigned ('.' :: es)

/-- The text is that of a numeral. -/
inductive Spells : List Char → Prop
  | plain {cs : List Char} : Unsigned cs → Spells cs
  | signed {c : Char} {cs : List Char} : c = '+' ∨ c = '-' → Unsigned cs → Spells (c :: cs)

structure Longest (p line : List Char) : Prop where
  starts : p <+: line
  spells : Spells p
  longest : ∀ r, Spells r → r <+: line → r <+: p

/-- The double nearest to what the digits say, with a place for each digit behind the point. -/
def writtenValue (p : List Char) : Float :=
  let amount := Float.ofScientific (digitsValue (p.filter isDigit)) true
    ((p.dropWhile (· != '.')).countP isDigit)
  if p.head? = some '-' then -amount else amount

/-- Digits and a fraction as they stand in the text. -/
def unsignedText (whole : List Char) : Option (List Char) → List Char
  | none => whole
  | some ds => whole ++ '.' :: ds

structure Sound (n : Numeral) : Prop where
  sign : ∀ c, n.sign = some c → isSign c = true
  whole : AllDigits n.whole
  fraction : AllDigits n.fractionDigits
  hasDigit : n.hasDigit = true

variable {n : Numeral} {cs ds es rest p : List Char}

theorem text_eq (n : Numeral) : n.text = n.sign.toList ++ unsignedText n.whole n.fraction := by
  unfold text unsignedText
  cases n.fraction <;> simp

theorem splitFraction_of_ne (h : cs.head? ≠ some '.') : splitFraction cs = (none, cs) := by
  unfold splitFraction
  split
  · simp at h
  · rfl

theorem unsignedText_append_rest (cs : List Char) :
    unsignedText (cs.takeWhile isDigit) (splitFraction (cs.dropWhile isDigit)).1 ++
      (splitFraction (cs.dropWhile isDigit)).2 = cs := by
  have hsplit : cs.takeWhile isDigit ++ cs.dropWhile isDigit = cs := List.takeWhile_append_dropWhile
  by_cases hp : (cs.dropWhile isDigit).head? = some '.'
  · obtain ⟨ds, hds⟩ := List.head?_eq_some_iff.mp hp
    rw [hds] at hsplit ⊢
    simp only [splitFraction, unsignedText, List.append_assoc, List.cons_append,
      List.takeWhile_append_dropWhile]
    exact hsplit
  · rw [splitFraction_of_ne hp]
    exact hsplit

/-- Behind digits and a point the scan goes on with the digits that follow. -/
theorem unsignedText_of_point (cs : List Char) (hds : AllDigits ds) :
    (ds ++ '.' :: cs).takeWhile isDigit = ds ∧
      splitFraction ((ds ++ '.' :: cs).dropWhile isDigit) =
        (some (cs.takeWhile isDigit), cs.dropWhile isDigit) := by
  have hpoint : ¬ isDigit '.' = true := by simp [isDigit_point]
  rw [List.takeWhile_append_of_pos hds, List.dropWhile_append_of_pos hds,
    List.takeWhile_cons_of_neg hpoint, List.dropWhile_cons_of_neg hpoint]
  exact ⟨List.append_nil ds, rfl⟩

theorem allDigits_splitFraction (cs : List Char) :
    AllDigits ((splitFraction cs).1.getD []) := by
  by_cases hp : cs.head? = some '.'
  · obtain ⟨ds, rfl⟩ := List.head?_eq_some_iff.mp hp
    exact allDigits_takeWhile ds
  · rw [splitFraction_of_ne hp]
    intro d hd
    simp at hd

/-- What an unsigned numeral at the start of a text has written, the scan of the text reads. -/
theorem unsignedText_longest (hp : Unsigned p) (h : p <+: cs) :
    p <+: unsignedText (cs.takeWhile isDigit) (splitFraction (cs.dropWhile isDigit)).1 ∧
      ¬ (cs.takeWhile isDigit = [] ∧
        (splitFraction (cs.dropWhile isDigit)).1.getD [] = []) := by
  have hpointed : ∀ {ds es : List Char}, AllDigits ds → AllDigits es → ds ≠ [] ∨ es ≠ [] →
      ds ++ '.' :: es <+: cs →
      ds ++ '.' :: es <+:
          unsignedText (cs.takeWhile isDigit) (splitFraction (cs.dropWhile isDigit)).1 ∧
        ¬ (cs.takeWhile isDigit = [] ∧
          (splitFraction (cs.dropWhile isDigit)).1.getD [] = []) := by
    rintro ds es hds hes hne ⟨rest, rfl⟩
    rw [List.append_assoc, List.cons_append]
    obtain ⟨hwhole, hfraction⟩ := unsignedText_of_point (es ++ rest) hds
    rw [hwhole, hfraction, List.takeWhile_append_of_pos hes]
    refine ⟨⟨rest.takeWhile isDigit, by simp [unsignedText]⟩, ?_⟩
    rintro ⟨rfl, hnil⟩
    exact hne.elim (· rfl) (· (List.append_eq_nil_iff.mp hnil).1)
  cases hp with
  | whole hne hds =>
    obtain ⟨rest, rfl⟩ := h
    rw [List.takeWhile_append_of_pos hds]
    refine ⟨?_, fun hnil => hne (List.append_eq_nil_iff.mp hnil.1).1⟩
    unfold unsignedText
    split
    · exact List.prefix_append _ _
    · rw [List.append_assoc]
      exact List.prefix_append _ _
  | pointed hne hds hes => exact hpointed hds hes (.inl hne) h
  | fraction hne hes => exact hpointed (show AllDigits [] by simp [AllDigits]) hes (.inr hne) h

theorem unsigned_unsignedText {whole : List Char} {fraction : Option (List Char)}
    (hw : AllDigits whole) (hf : AllDigits (fraction.getD []))
    (hd : ¬ (whole = [] ∧ fraction.getD [] = [])) : Unsigned (unsignedText whole fraction) := by
  cases fraction with
  | none => exact .whole (fun hnil => hd ⟨hnil, rfl⟩) hw
  | some ds =>
    by_cases hnil : whole = []
    · subst hnil
      exact .fraction (fun hds => hd ⟨rfl, hds⟩) hf
    · exact .pointed hnil hw hf

theorem Unsigned.head (hp : Unsigned p) : ∃ c q, p = c :: q ∧ isSign c = false := by
  have hdigits : ∀ {ds : List Char}, ds ≠ [] → AllDigits ds →
      ∃ c q, ds = c :: q ∧ isSign c = false := by
    intro ds hne hds
    obtain ⟨d, q, rfl⟩ := List.exists_cons_of_ne_nil hne
    exact ⟨d, q, rfl, isSign_of_isDigit (hds d List.mem_cons_self)⟩
  cases hp with
  | whole hne hds => exact hdigits hne hds
  | pointed hne hds _ =>
    obtain ⟨d, q, rfl, hd⟩ := hdigits hne hds
    exact ⟨d, _, rfl, hd⟩
  | fraction => exact ⟨'.', _, rfl, by decide⟩

theorem splitSign_append (cs : List Char) :
    (splitSign cs).1.toList ++ (splitSign cs).2 = cs ∧
      ∀ c, (splitSign cs).1 = some c → isSign c = true := by
  unfold splitSign
  split
  · simp
  · split
    · rename_i hc
      refine ⟨rfl, fun d hd => ?_⟩
      obtain rfl := Option.some.inj hd
      exact hc
    · simp

theorem splitSign_of_unsigned (hp : Unsigned p) (h : p <+: cs) : splitSign cs = (none, cs) := by
  obtain ⟨c, q, rfl, hc⟩ := hp.head
  obtain ⟨rest, rfl⟩ := h
  rw [List.cons_append, splitSign, hc, if_neg Bool.false_ne_true]

theorem splitSign_of_sign {c : Char} (hc : c = '+' ∨ c = '-') :
    splitSign (c :: cs) = (some c, cs) := by
  have hsign : isSign c = true := by simpa [isSign] using hc
  rw [splitSign, if_pos hsign]

/-- The sign, the digits and the fraction that the scan of a text comes upon. -/
def scanned (cs : List Char) : Numeral :=
  ⟨(splitSign cs).1, (splitSign cs).2.takeWhile isDigit,
    (splitFraction ((splitSign cs).2.dropWhile isDigit)).1⟩

theorem scan?_eq (cs : List Char) : scan? cs =
    if (scanned cs).hasDigit then
      some (scanned cs, (splitFraction ((splitSign cs).2.dropWhile isDigit)).2)
    else none := rfl

theorem hasDigit_iff : n.hasDigit = true ↔ ¬ (n.whole = [] ∧ n.fractionDigits = []) := by
  unfold hasDigit
  rw [Bool.not_eq_true', ← Bool.not_eq_true, Bool.and_eq_true, List.isEmpty_iff, List.isEmpty_iff]

theorem scan?_eq_some (h : scan? cs = some (n, rest)) : n.Sound ∧ n.text ++ rest = cs := by
  rw [scan?_eq] at h
  split at h
  · rename_i hdigit
    obtain ⟨rfl, rfl⟩ := Prod.mk.inj (Option.some.inj h)
    obtain ⟨hsign, his⟩ := splitSign_append cs
    refine ⟨⟨his, allDigits_takeWhile _, allDigits_splitFraction _, hdigit⟩, ?_⟩
    rw [text_eq, List.append_assoc]
    dsimp only [scanned]
    rw [unsignedText_append_rest, hsign]
  · simp at h

theorem Sound.spells (h : n.Sound) : Spells n.text := by
  have hbody : Unsigned (unsignedText n.whole n.fraction) :=
    unsigned_unsignedText h.whole h.fraction (hasDigit_iff.mp h.hasDigit)
  rw [text_eq]
  cases hs : n.sign with
  | none => exact .plain hbody
  | some c => exact .signed (by simpa [isSign] using h.sign c hs) hbody

theorem scan?_of_spells (hp : Spells p) (h : p <+: cs) :
    ∃ n rest, scan? cs = some (n, rest) ∧ p <+: n.text := by
  have hscan : ∀ {sign : Option Char} {q body : List Char}, Unsigned q → q <+: body →
      splitSign cs = (sign, body) → p = sign.toList ++ q →
      ∃ n rest, scan? cs = some (n, rest) ∧ p <+: n.text := by
    intro sign q body hq hbody hsplit hpq
    obtain ⟨hle, hdigit⟩ := unsignedText_longest hq hbody
    have hscanned : scanned cs = ⟨sign, body.takeWhile isDigit,
        (splitFraction (body.dropWhile isDigit)).1⟩ := by rw [scanned, hsplit]
    have hhas : (scanned cs).hasDigit = true := by
      rw [hasDigit_iff, hscanned]
      exact hdigit
    refine ⟨scanned cs, _, by rw [scan?_eq, if_pos hhas], ?_⟩
    rw [text_eq, hscanned, hpq]
    exact (List.prefix_append_right_inj _).mpr hle
  cases hp with
  | plain hu => exact hscan hu h (splitSign_of_unsigned hu h) rfl
  | @signed c q hc hu =>
    obtain ⟨rest, rfl⟩ := h
    exact hscan hu (List.prefix_append q rest) (splitSign_of_sign hc) rfl

theorem scan?_longest (h : scan? cs = some (n, rest)) : Longest n.text cs := by
  obtain ⟨hsound, heq⟩ := scan?_eq_some h
  refine ⟨⟨rest, heq⟩, hsound.spells, fun r hr hcs => ?_⟩
  obtain ⟨m, rest', hm, hle⟩ := scan?_of_spells hr hcs
  obtain ⟨rfl, -⟩ := Prod.mk.inj (Option.some.inj (h.symm.trans hm))
  exact hle

theorem Longest.eq {q : List Char} (hp : Longest p cs) (hq : Longest q cs) : p = q :=
  (hq.longest p hp.spells hp.starts).eq_of_length_le (hp.longest q hq.spells hq.starts).length_le

theorem Sound.filter_text (h : n.Sound) :
    n.text.filter isDigit = n.whole ++ n.fractionDigits := by
  have hsign : n.sign.toList.filter isDigit = [] := by
    apply List.filter_eq_nil_iff.mpr
    intro c hc hdigit
    have his := h.sign c (Option.mem_toList.mp hc)
    simp [isSign_of_isDigit hdigit] at his
  have hwhole : n.whole.filter isDigit = n.whole := List.filter_eq_self.mpr h.whole
  have hfraction : n.fractionDigits.filter isDigit = n.fractionDigits :=
    List.filter_eq_self.mpr h.fraction
  rw [text_eq, List.filter_append, hsign, List.nil_append]
  cases hf : n.fraction with
  | none => simp [unsignedText, fractionDigits, hf, hwhole]
  | some ds =>
    have hds : ds.filter isDigit = ds := by simpa [fractionDigits, hf] using hfraction
    simp [unsignedText, fractionDigits, hf, hwhole, hds, isDigit_point]

theorem Sound.places_text (h : n.Sound) :
    (n.text.dropWhile (· != '.')).countP isDigit = n.fractionDigits.length := by
  have hne : ∀ c ∈ n.sign.toList ++ n.whole, (c != '.') = true := by
    intro c hc
    rw [bne_iff_ne]
    rintro rfl
    rcases List.mem_append.mp hc with hc | hc
    · exact absurd (h.sign _ (Option.mem_toList.mp hc)) (by decide)
    · exact absurd (h.whole _ hc) (by decide)
  have hfraction : n.fractionDigits.countP isDigit = n.fractionDigits.length :=
    List.countP_eq_length.mpr h.fraction
  rw [text_eq]
  cases hf : n.fraction with
  | none =>
    have hdrop : (n.sign.toList ++ n.whole).dropWhile (· != '.') = [] := by
      rw [← List.append_nil (n.sign.toList ++ n.whole), List.dropWhile_append_of_pos hne]
      rfl
    rw [unsignedText, hdrop]
    simp [fractionDigits, hf]
  | some ds =>
    rw [unsignedText, ← List.append_assoc, List.dropWhile_append_of_pos hne,
      List.dropWhile_cons_of_neg (by simp)]
    simpa [fractionDigits, hf, isDigit_point] using hfraction

theorem Sound.head_text (h : n.Sound) : n.text.head? = some '-' ↔ n.sign = some '-' := by
  obtain ⟨c, q, hbody, hc⟩ :=
    (unsigned_unsignedText h.whole h.fraction (hasDigit_iff.mp h.hasDigit)).head
  rw [text_eq, hbody]
  cases hs : n.sign with
  | some d => simp
  | none =>
    have hne : c ≠ '-' := by
      rintro rfl
      exact absurd hc (by decide)
    simp [hne]

theorem Sound.value_eq (h : n.Sound) : n.value = writtenValue n.text := by
  unfold value writtenValue
  simp only [h.filter_text, h.places_text, h.head_text]

end Numeral

section

variable {text : String} {x : Float} {suffix : String} {line p : List Char}

theorem splitNumber?_of_longest (hline : OnOneLine text.toList (p ++ suffix.toList))
    (hp : Numeral.Longest p (p ++ suffix.toList)) :
    splitNumber? text = some (Numeral.writtenValue p, suffix) := by
  obtain ⟨heq, hunbroken⟩ := onOneLine_iff.mp hline
  obtain ⟨n, rest, hscan, -⟩ := Numeral.scan?_of_spells hp.spells hp.starts
  obtain ⟨hsound, htext⟩ := Numeral.scan?_eq_some hscan
  obtain rfl := (Numeral.scan?_longest hscan).eq hp
  have hrest : rest = suffix.toList := List.append_cancel_left htext
  have hsplit : splitNumeral? text.toList = some (n, suffix.toList) := by
    unfold splitNumeral?
    rw [if_neg (by simpa using hunbroken), ← heq, hscan, hrest]
  rw [splitNumber?, hsplit, Option.map_some]
  dsimp only
  rw [String.ofList_toList, hsound.value_eq]

theorem longest_of_splitNumber? (h : splitNumber? text = some (x, suffix)) :
    ∃ p, OnOneLine text.toList (p ++ suffix.toList) ∧
      Numeral.Longest p (p ++ suffix.toList) ∧ x = Numeral.writtenValue p := by
  obtain ⟨⟨n, rest⟩, hsplit, hx⟩ := Option.map_eq_some_iff.mp h
  obtain ⟨rfl, rfl⟩ := Prod.mk.inj hx
  unfold splitNumeral? at hsplit
  split at hsplit
  · simp at hsplit
  · rename_i hbreak
    have hunbroken : '\n' ∉ dropLineBreak text.toList := by simpa using hbreak
    obtain ⟨hsound, htext⟩ := Numeral.scan?_eq_some hsplit
    have hline : n.text ++ (String.ofList rest).toList = dropLineBreak text.toList := by
      rw [String.toList_ofList, htext]
    refine ⟨n.text, onOneLine_iff.mpr ⟨hline, hunbroken⟩, ?_, hsound.value_eq⟩
    rw [hline]
    exact Numeral.scan?_longest hsplit

theorem splitNumber?_isSome (hline : OnOneLine text.toList line) (hp : Numeral.Spells p)
    (h : p <+: line) : (splitNumber? text).isSome = true := by
  obtain ⟨heq, hunbroken⟩ := onOneLine_iff.mp hline
  obtain ⟨n, rest, hscan, -⟩ := Numeral.scan?_of_spells hp h
  have hsplit : splitNumeral? text.toList = some (n, rest) := by
    unfold splitNumeral?
    rw [if_neg (by simpa using hunbroken), ← heq, hscan]
  rw [splitNumber?, hsplit]
  rfl

end

/-- A text is split exactly where it is one line that a numeral starts. The number is the longest
such numeral, and what is left of the line is the suffix. -/
theorem number_is_longest_numeral (text : String) :
    ((splitNumber? text).isSome = true ↔
        ∃ line p, OnOneLine text.toList line ∧ Numeral.Spells p ∧ p <+: line) ∧
      ∀ x suffix, splitNumber? text = some (x, suffix) ↔
        ∃ p, OnOneLine text.toList (p ++ suffix.toList) ∧
          Numeral.Longest p (p ++ suffix.toList) ∧ x = Numeral.writtenValue p ∧
          x.isNaN = false := by
  refine ⟨⟨fun h => ?_, ?_⟩, fun x suffix => ⟨fun h => ?_, ?_⟩⟩
  · obtain ⟨⟨x, suffix⟩, hx⟩ := Option.isSome_iff_exists.mp h
    obtain ⟨p, hline, hp, -⟩ := longest_of_splitNumber? hx
    exact ⟨_, p, hline, hp.spells, hp.starts⟩
  · rintro ⟨line, p, hline, hp, h⟩
    exact splitNumber?_isSome hline hp h
  · obtain ⟨p, hline, hp, hx⟩ := longest_of_splitNumber? h
    exact ⟨p, hline, hp, hx, isNaN_of_splitNumber? h⟩
  · rintro ⟨p, hline, hp, rfl, -⟩
    exact splitNumber?_of_longest hline hp

/-- The second point is no part of the number, and the line break no part of the suffix. -/
theorem number_is_longest_numeral_break :
    splitNumber? "-1..5\n" = some (-1.0, ".5") ∧
      ∃ p, OnOneLine "-1..5\n".toList (p ++ ".5".toList) ∧
        Numeral.Longest p (p ++ ".5".toList) ∧ -1.0 = Numeral.writtenValue p := by
  have hsplit : splitNumber? "-1..5\n" = some (-1.0, ".5") := by decide +kernel
  obtain ⟨-, hexact⟩ := number_is_longest_numeral "-1..5\n"
  obtain ⟨p, hline, hp, hx, -⟩ := (hexact (-1.0) ".5").mp hsplit
  exact ⟨hsplit, p, hline, hp, hx⟩

end TasScript
