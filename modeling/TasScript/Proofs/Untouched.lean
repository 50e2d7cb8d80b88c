import TasScript.Catalogue.Basic
import TasScript.Proofs.Stopping

/-! What an optional node has not touched it does not reject. It fails at a number of another unit
or out of its bounds, or further on than where it began; so optional nodes are walked over an empty
line without any failure. -/

namespace TasScript

theorem Mismatch.kind_of_hard {m : Mismatch} (hn : m.isOfNode = true) (hs : m.isSoft = false) :
    m.kind = .unitMismatch ∨ m.kind = .outOfRange := by
  unfold isOfNode at hn
  unfold isSoft at hs
  cases hk : m.kind <;> simp_all [RefusalKind.isOfNode]

/-- The failure is that of a number with a unit or bounds, or lies behind the token at `pos`. -/
def Miss.Touches (miss : Miss) (pos : Nat) : Prop :=
  miss.mismatch.kind = .unitMismatch ∨ miss.mismatch.kind = .outOfRange ∨ pos < miss.index

theorem Miss.Touches.mono {miss : Miss} {i j : Nat} (h : miss.Touches j) (hij : i ≤ j) :
    miss.Touches i := by
  rcases h with hunit | hrange | hindex
  · exact .inl hunit
  · exact .inr (.inl hrange)
  · exact .inr (.inr (Nat.lt_of_le_of_lt hij hindex))

namespace Node

variable {l : Line} {slot : Nat} {p q : Progress} {n : Node} {ns : List Node} {w : Walked}
  {miss : Miss}

namespace Walks

theorem touches_of_hard (hw : Walks l slot p ns (.failed miss q))
    (hsoft : miss.mismatch.isSoft = false) (pos : Nat) : miss.Touches pos := by
  obtain ⟨m, rfl, hm⟩ := hw.located rfl
  rw [Line.missAt_mismatch] at hsoft
  unfold Miss.Touches
  rw [Line.missAt_mismatch]
  rcases Mismatch.kind_of_hard hm hsoft with hunit | hrange
  · exact .inl hunit
  · exact .inr (.inl hrange)

/-- Nodes none of which is required fail only at what they have touched. -/
theorem touches (hw : Walks l slot p ns w) (hns : ∀ n ∈ ns, n.slot.required = false)
    (hf : w = .failed miss q) : miss.Touches p.pos := by
  induction hw with
  | nil => simp at hf
  | @bound _ p₁ q₁ r₁ _ _ _ _ _ hb hc _ _ ihn =>
    have hhead := Line.pos_of_bindHead hb
    have hchildren : q₁.pos ≤ r₁.pos := hc.pos_le
    have hrest := ihn (fun n hn => hns n (List.mem_cons_of_mem _ hn)) hf
    exact hrest.mono (by omega)
  -- a failure below a bound head, of whatever kind, lies behind that head
  | @childFailed _ p₁ q₁ r₁ _ _ _ _ _ hb hc _ =>
    obtain ⟨rfl, rfl⟩ := Walked.failed.inj hf
    have hhead := Line.pos_of_bindHead hb
    have hchildren : q₁.pos ≤ r₁.pos := hc.pos_le
    have hindex := hc.index_eq
    exact .inr (.inr (by omega))
  | @refused slot₁ p₁ s cs os ns₁ miss₁ hb hr =>
    obtain ⟨rfl, rfl⟩ := Walked.failed.inj hf
    have hopt : s.required = false := hns (.mk s cs os) List.mem_cons_self
    have hhard : miss₁.mismatch.isSoft = false := by simpa [hopt] using hr
    have hw : Walks l slot₁ p₁ (.mk s cs os :: ns₁) (.failed miss₁ p₁) := .refused hb (.inl hhard)
    exact hw.touches_of_hard hhard _
  | skipped _ _ _ _ ihn => exact ihn (fun n hn => hns n (List.mem_cons_of_mem _ hn)) hf
  | @otherwise _ p₁ q₁ _ _ _ _ _ _ _ _ _ ho _ _ ihn =>
    have hbranch : p₁.pos ≤ q₁.pos := ho.pos_le
    exact (ihn (fun n hn => hns n (List.mem_cons_of_mem _ hn)) hf).mono hbranch
  | @branchFailed _ _ _ _ _ _ _ _ inner _ _ _ ho hfar _ =>
    obtain ⟨rfl, rfl⟩ := Walked.failed.inj hf
    -- a soft failure of the alternative comes through only from further on
    cases hsoft : inner.mismatch.isSoft with
    | false => exact ho.touches_of_hard hsoft _
    | true => exact .inr (.inr (Nat.lt_of_not_le fun hle => hfar ⟨hsoft, hle⟩))
  | passed _ _ _ _ _ _ _ _ _ ihn => exact ihn (fun n hn => hns n (List.mem_cons_of_mem _ hn)) hf
  | @noneLeft _ _ _ s cs os _ _ _ _ _ _ _ _ _ hreq _ =>
    have hopt : s.required = false := hns (.mk s cs os) List.mem_cons_self
    simp [hopt] at hreq

theorem eq_of_done (hw : Walks l slot p ns (.done q)) (hpos : q.pos ≤ p.pos) : q = p := by
  obtain ⟨g, hg, -⟩ := hw.reading
  exact hg.eq_of_pos_le hpos

/-- Behind the last token there is nothing that could have a wrong unit or be out of bounds. -/
theorem isSoft_of_end (hw : Walks l slot p ns w) (hf : w = .failed miss q)
    (hend : l.tokens.length ≤ q.pos) : miss.mismatch.isSoft = true := by
  induction hw with
  | nil => simp at hf
  | bound _ _ _ _ ihn => exact ihn hf
  | childFailed _ _ ihc => exact ihc hf
  | refused hb _ =>
    obtain ⟨rfl, rfl⟩ := Walked.failed.inj hf
    simp only [Line.bindHead, List.getElem?_eq_none hend, Except.error.injEq] at hb
    rw [← hb, Line.missAt_mismatch]
    rfl
  | skipped _ _ _ _ ihn => exact ihn hf
  | otherwise _ _ _ _ _ _ ihn => exact ihn hf
  | branchFailed _ _ _ _ _ iho => exact iho hf
  | passed _ _ _ _ _ _ _ _ _ ihn => exact ihn hf
  | noneLeft =>
    obtain ⟨rfl, rfl⟩ := Walked.failed.inj hf
    rw [Line.noAlternative, Line.missAt_mismatch, decide_eq_true hend]
    rfl

end Walks

/-- With all tokens read, nodes none of which is required are passed over. -/
theorem walkAll_of_end (hns : ∀ n ∈ ns, n.slot.required = false)
    (hend : p.pos = l.tokens.length) : walkAll l slot p ns = .done p := by
  cases hres : walkAll l slot p ns with
  | done q =>
    have hw := walks_iff.mpr hres
    obtain ⟨g, hg, -⟩ := hw.reading
    have hlast : q.pos ≤ l.tokens.length := hg.pos_le_length (Nat.le_of_eq hend)
    rw [hw.eq_of_done (by omega)]
  | failed miss q =>
    have hw := walks_iff.mpr hres
    obtain ⟨g, hg, -⟩ := hw.reading
    have hlast : q.pos ≤ l.tokens.length := hg.pos_le_length (Nat.le_of_eq hend)
    have hfirst : p.pos ≤ q.pos := hw.pos_le
    have hsoft := hw.isSoft_of_end rfl (by omega)
    have hindex := hw.index_eq
    rcases hw.touches hns rfl with hunit | hrange | hbehind
    · simp [Mismatch.isSoft, hunit] at hsoft
    · simp [Mismatch.isSoft, hrange] at hsoft
    · omega

end Node

open Node

namespace Schema

variable {s : Schema} {l : Line} {miss : Miss}

theorem walk_of_no_tokens (hs : ∀ n ∈ s.arguments, n.slot.required = false)
    (name : Option Token) :
    s.walk (s.line [] name) = .ok (List.replicate s.slotCount none, []) := by
  cases ho : s.fixedOrder with
  | true =>
    have hdone : walkAll (s.line [] name) 0 (.start s.slotCount) s.arguments = .done _ :=
      walkAll_of_end hs rfl
    rw [walk_of_ordered ho]
    exact walkOrdered_eq_ok_iff.mpr ⟨_, hdone, rfl, rfl, by simp⟩
  | false =>
    have hmissing : Flags.missing s.flags s.flagStart = [] := by
      refine Flags.missing_eq_nil.mpr fun c hc hreq => ?_
      rw [hs c.1 (mem_of_placed hc)] at hreq
      contradiction
    rw [walk_of_flags ho]
    exact walkFlags_eq_ok_iff.mpr ⟨_, .refl, Nat.le_refl _, hmissing, rfl, rfl⟩

theorem allOptional_eq (hs : ∀ n ∈ s.arguments, n.slot.required = false) :
    s.allOptional = !s.arguments.isEmpty := by
  have hnone : (s.arguments.any fun n => n.slot.required) = false := by simpa using hs
  simp [allOptional, hnone]

theorem judge_of_no_tokens (hs : ∀ n ∈ s.arguments, n.slot.required = false)
    (hl : l.tokens = []) : s.judge l =
      if s.expectsArguments && s.arguments.isEmpty then
        .error (.argumentsExpected s.name, l.endSpan?)
      else .ok (.bound (List.replicate s.slotCount none) []) := by
  unfold judge
  rw [hl, allOptional_eq hs]
  cases s.expectsArguments <;> cases s.arguments.isEmpty <;> rfl

/-- A walk in fixed order that fails at its first token does so because the token is too much, or is
a number that does not do. -/
theorem kind_of_failed_at_first (hs : ∀ n ∈ s.arguments, n.slot.required = false)
    (ho : s.fixedOrder = true) (hw : s.walk l = .error miss) (hi : miss.index = 0) :
    miss.mismatch.kind = .trailingArguments ∨ miss.mismatch.kind = .unitMismatch ∨
      miss.mismatch.kind = .outOfRange := by
  obtain ⟨q, hstop⟩ := walk_eq_error_iff.mp hw
  cases hstop with
  | node _ hq =>
    rcases (walks_iff.mpr hq).touches hs rfl with hunit | hrange | hbehind
    · exact .inr (.inl hunit)
    · exact .inr (.inr hrange)
    · omega
  | trailing => exact .inl rfl
  | flag hf => simp [ho] at hf
  | missing hf => simp [ho] at hf

/-- Optional nodes reject nothing that they have not touched, and a grammar of optional nodes binds
nothing of an empty line. The rule for a call without arguments agrees with that walk except for a
tool that expects arguments and has no nodes. -/
theorem optional_nodes_untouched :
    (∀ (l : Line) (slot : Nat) (p : Progress) (n : Node), n.slot.required = false →
      (∀ miss q, n.walk l slot p = .failed miss q →
        miss.mismatch.kind = .unitMismatch ∨ miss.mismatch.kind = .outOfRange ∨
          p.pos < miss.index) ∧
      ∀ q, n.walk l slot p = .done q → q.pos = p.pos → q.values = p.values) ∧
    ∀ s : Schema, (∀ n ∈ s.arguments, n.slot.required = false) →
      (∀ name, s.walk (s.line [] name) = .ok (List.replicate s.slotCount none, []) ∧
        (s.matchTokens [] name).verdict =
          if s.expectsArguments && s.arguments.isEmpty then
            .refused ⟨.missingArguments, (Mismatch.argumentsExpected s.name).message,
              (s.line [] name).endSpan?⟩
          else .bound (List.replicate s.slotCount none) []) ∧
      ∀ l miss, s.fixedOrder = true → s.walk l = .error miss → miss.index = 0 →
        miss.mismatch.kind = .trailingArguments ∨ miss.mismatch.kind = .unitMismatch ∨
          miss.mismatch.kind = .outOfRange := by
  refine ⟨fun l slot p n hn => ⟨fun miss q hq => ?_, fun q hq hpos => ?_⟩,
    fun s hs => ⟨fun name => ⟨walk_of_no_tokens hs name, ?_⟩, fun l miss => ?_⟩⟩
  · have hw := n.walks_singleton l slot p
    exact hw.touches (by simpa using hn) hq
  · have hw := n.walks_singleton l slot p
    rw [hq] at hw
    rw [hw.eq_of_done (Nat.le_of_eq hpos)]
  · have hj := judge_of_no_tokens (l := s.line [] name) hs rfl
    split
    · rename_i hbare
      rw [if_pos hbare] at hj
      rw [matchTokens_of_judge_error hj]
      rfl
    · rename_i hbare
      rw [if_neg hbare] at hj
      rw [matchTokens_of_judge hj]
  · exact kind_of_failed_at_first hs

/-- A check of a position that is not given, of something else, and of nothing. -/
theorem optional_nodes_untouched_check :
    let position := Catalogue.check.line [⟨.string, "pos", ⟨2, 6, 9⟩⟩] none
    let speed := Catalogue.check.line [⟨.string, "vel", ⟨2, 6, 9⟩⟩] none
    let axis := fun key => Node.leaf (Slot.number key).needed
    let n : Node := .mk (.keyword "pos") [axis "x", axis "y", axis "z"] []
    n ∈ Catalogue.check.arguments ∧
    (∃ miss q, n.walk position 0 (.start 11) = .failed miss q ∧
      (miss.mismatch.kind = .unitMismatch ∨ miss.mismatch.kind = .outOfRange ∨ 0 < miss.index)) ∧
    (∃ q, n.walk speed 0 (.start 11) = .done q ∧ q.pos = 0 ∧ q.values = List.replicate 11 none) ∧
    (Catalogue.check.matchTokens [] none).verdict = .bound (List.replicate 11 none) [] ∧
    ∃ miss, Catalogue.check.walk speed = .error miss ∧ miss.index = 0 ∧
      (miss.mismatch.kind = .trailingArguments ∨ miss.mismatch.kind = .unitMismatch ∨
        miss.mismatch.kind = .outOfRange) := by
  intro position speed axis n
  obtain ⟨hnode, hschema⟩ := optional_nodes_untouched
  have hopt : ∀ m ∈ Catalogue.check.arguments, m.slot.required = false := by decide
  obtain ⟨hblank, hfirst⟩ := hschema Catalogue.check hopt
  refine ⟨List.mem_cons_self, ⟨_, _, rfl, ?_⟩, ⟨_, rfl, rfl, ?_⟩, (hblank none).2, _, rfl, rfl, ?_⟩
  · exact (hnode position 0 (.start 11) n rfl).1 _ _ rfl
  · exact (hnode speed 0 (.start 11) n rfl).2 _ rfl rfl
  · exact hfirst speed _ rfl rfl rfl

/-- The console command has no nodes to pass over, and yet wants arguments. -/
theorem bare_command_refused :
    Catalogue.cmd.Accepted ∧ (∀ n ∈ Catalogue.cmd.arguments, n.slot.required = false) ∧
      Catalogue.cmd.walk (Catalogue.cmd.line [] none) = .ok ([], []) ∧
      (Catalogue.cmd.matchTokens [] none).refusal? =
        some ⟨.missingArguments, "'cmd' expects arguments", none⟩ :=
  ⟨by decide, by decide, rfl, by decide⟩

end Schema

end TasScript
