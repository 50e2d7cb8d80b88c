import TasScript.Proofs.Course
import TasScript.Proofs.Derivation

/-! Every walk has a reading behind it, as far as it came: the tokens it passed are the tokens of
the reading, and the values it leaves are those that the reading writes. A failure lies at the token
that was not read, so that a walk which failed where it began has bound nothing. -/

namespace TasScript

/-- The tokens between `p` and `q` are those of `g`, and `g` writes what was bound on the way. -/
structure Line.Reads (l : Line) (p : Progress) (g : Ledger) (q : Progress) : Prop where
  tokens : l.tokens.drop p.pos = g.tokens ++ l.tokens.drop q.pos
  pos : q.pos = p.pos + g.length
  values : q.values = g.fill p.values

namespace Line

variable {l : Line} {p q r : Progress} {g h : Ledger}

theorem Reads.refl (l : Line) (p : Progress) : l.Reads p [] p := ⟨rfl, rfl, rfl⟩

theorem Reads.trans (hg : l.Reads p g q) (hh : l.Reads q h r) : l.Reads p (g ++ h) r where
  tokens := by rw [hg.tokens, hh.tokens, Ledger.tokens_append, List.append_assoc]
  pos := by rw [hh.pos, hg.pos, List.length_append, Nat.add_assoc]
  values := by rw [hh.values, hg.values, Ledger.fill_append]

theorem Reads.pos_le_length (h : l.Reads p g q) (hp : p.pos ≤ l.tokens.length) :
    q.pos ≤ l.tokens.length := by
  have hlen := congrArg List.length h.tokens
  have hpos := h.pos
  simp only [List.length_drop, List.length_append, Ledger.length_tokens] at hlen
  omega

/-- Where no token was read, nothing was bound. -/
theorem Reads.eq_of_pos_le (h : l.Reads p g q) (hpos : q.pos ≤ p.pos) : q = p := by
  obtain ⟨pos, values⟩ := q
  obtain ⟨pos', values'⟩ := p
  obtain ⟨-, hq, hvalues⟩ := h
  dsimp only at hpos hq hvalues
  have hlen : g.length = 0 := by omega
  obtain rfl := List.eq_nil_of_length_eq_zero hlen
  rw [hq, hvalues]
  rfl

theorem drop_of_getElem? {t : Token} {i : Nat} (ht : l.tokens[i]? = some t) :
    l.tokens.drop i = t :: l.tokens.drop (i + 1) := by
  obtain ⟨hi, rfl⟩ := List.getElem?_eq_some_iff.mp ht
  exact List.drop_eq_getElem_cons hi

theorem Reads.bind {t : Token} {slot : Nat} {v : Value} (ht : l.tokens[p.pos]? = some t) :
    l.Reads p [.bound t slot v] (p.bind slot v) :=
  ⟨drop_of_getElem? ht, rfl, rfl⟩

theorem bindHead_eq_ok {s : Slot} {slot : Nat} (hq : l.bindHead s slot p = .ok q) :
    ∃ t v, l.tokens[p.pos]? = some t ∧ s.bind t = .ok v ∧ q = p.bind slot v := by
  unfold bindHead at hq
  split at hq
  · simp at hq
  · rename_i t ht
    split at hq
    · rename_i v hv
      exact ⟨t, v, ht, hv, (Except.ok.inj hq).symm⟩
    · simp at hq

theorem pos_of_bindHead {s : Slot} {slot : Nat} (hq : l.bindHead s slot p = .ok q) :
    q.pos = p.pos + 1 := by
  obtain ⟨t, v, -, -, rfl⟩ := bindHead_eq_ok hq
  rfl

end Line

namespace Node

theorem derives_single {base : Nat} {s : Slot} {cs os : List Node} {t : Token} {v : Value}
    {g : Ledger} (hb : s.bind t = .ok v) (hg : Derives (base + 1) cs g) :
    Derives base [mk s cs os] (.bound t base v :: g) := by
  have hd : Derives base [mk s cs os] (.bound t base v :: (g ++ [])) := .bound hb hg (.nil _)
  simpa using hd

variable {l : Line} {slot : Nat} {p q : Progress} {ns : List Node} {w : Walked} {miss : Miss}

namespace Walks

theorem reading (hw : Walks l slot p ns w) :
    ∃ g, l.Reads p g w.progress ∧ ∀ q, w = .done q → Derives slot ns g := by
  induction hw with
  | nil => exact ⟨[], .refl l _, fun _ _ => .nil _⟩
  | @bound slot _ _ _ _ _ _ _ _ hb _ _ ihc ihn =>
    obtain ⟨t, v, ht, hv, rfl⟩ := Line.bindHead_eq_ok hb
    obtain ⟨g, hg, hdg⟩ := ihc
    obtain ⟨h, hh, hdh⟩ := ihn
    refine ⟨.bound t slot v :: (g ++ h), (Line.Reads.bind ht).trans (hg.trans hh), ?_⟩
    exact fun q hq => .bound hv (hdg _ rfl) (hdh q hq)
  | childFailed hb _ ihc =>
    obtain ⟨t, v, ht, -, rfl⟩ := Line.bindHead_eq_ok hb
    obtain ⟨g, hg, -⟩ := ihc
    exact ⟨_, (Line.Reads.bind ht).trans hg, by simp⟩
  | refused => exact ⟨[], .refl l _, by simp⟩
  | skipped _ _ hr _ ihn =>
    obtain ⟨h, hh, hdh⟩ := ihn
    exact ⟨h, hh, fun q hq => .skipped hr (hdh q hq)⟩
  | otherwise _ _ ho _ _ iho ihn =>
    obtain ⟨g, hg, hdg⟩ := iho
    obtain ⟨h, hh, hdh⟩ := ihn
    exact ⟨g ++ h, hg.trans hh, fun q hq => .otherwise ho (hdg _ rfl) (hdh q hq)⟩
  | branchFailed _ _ _ _ _ iho =>
    obtain ⟨g, hg, -⟩ := iho
    exact ⟨g, hg, by simp⟩
  -- the alternative was given up, and the walk is back where it began
  | passed _ _ _ _ _ _ hr _ _ ihn =>
    obtain ⟨h, hh, hdh⟩ := ihn
    exact ⟨h, hh, fun q hq => .skipped hr (hdh q hq)⟩
  | noneLeft => exact ⟨[], .refl l _, by simp⟩

theorem pos_le (hw : Walks l slot p ns w) : p.pos ≤ w.progress.pos := by
  obtain ⟨g, hg, -⟩ := hw.reading
  rw [hg.pos]
  exact Nat.le_add_right _ _

/-- A failure lies at the token to which the walk has come. -/
theorem located (hw : Walks l slot p ns w) (hf : w = .failed miss q) :
    ∃ m, miss = l.missAt q.pos m ∧ m.isOfNode = true := by
  induction hw with
  | nil => simp at hf
  | bound _ _ _ _ ihn => exact ihn hf
  | childFailed _ _ ihc => exact ihc hf
  | refused hb _ =>
    obtain ⟨rfl, rfl⟩ := Walked.failed.inj hf
    exact Line.bindHead_eq_error hb
  | skipped _ _ _ _ ihn => exact ihn hf
  | otherwise _ _ _ _ _ _ ihn => exact ihn hf
  | branchFailed _ _ _ _ _ iho => exact iho hf
  | passed _ _ _ _ _ _ _ _ _ ihn => exact ihn hf
  | @noneLeft _ p _ s =>
    obtain ⟨rfl, rfl⟩ := Walked.failed.inj hf
    refine ⟨_, rfl, ?_⟩
    cases decide (l.tokens.length ≤ p.pos) <;> rfl

theorem index_eq (hw : Walks l slot p ns (.failed miss q)) : miss.index = q.pos := by
  obtain ⟨m, rfl, -⟩ := hw.located rfl
  exact Line.missAt_index

/-- What failed without having read a token has bound nothing. -/
theorem eq_of_index_le (hw : Walks l slot p ns (.failed miss q)) (hi : miss.index ≤ p.pos) :
    q = p := by
  obtain ⟨g, hg, -⟩ := hw.reading
  rw [hw.index_eq] at hi
  exact hg.eq_of_pos_le hi

end Walks

theorem walkAll_reading (l : Line) (slot : Nat) (p q : Progress) (ns : List Node)
    (hq : walkAll l slot p ns = .done q) : ∃ g, Derives slot ns g ∧ l.Reads p g q := by
  obtain ⟨g, hg, hd⟩ := (walks_iff.mpr hq).reading
  exact ⟨g, hd q rfl, hg⟩

end Node

end TasScript
