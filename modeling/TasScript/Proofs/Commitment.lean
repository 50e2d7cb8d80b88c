import TasScript.Catalogue.Basic
import TasScript.Proofs.Onward
import TasScript.Proofs.Stopping

/-! A node that has bound its slot is never given up. Walks begin other walks: of the children of a
node, of its alternative, of the nodes behind it. An alternative is given up only where it began,
and a failure that lies further on is passed out of every walk around it. -/

namespace TasScript

namespace Node

/-- A walk of nodes about to begin, with the slot of the first and the progress so far. -/
structure Call where
  slot : Nat
  progress : Progress
  nodes : List Node

namespace Call

variable {l : Line} {c d root : Call} {miss : Miss} {r : Progress}

def result (l : Line) (c : Call) : Walked := walkAll l c.slot c.progress c.nodes

inductive Begins (l : Line) : Call → Call → Prop
  | children {slot : Nat} {p q : Progress} {s : Slot} {cs os ns : List Node} :
      l.bindHead s slot p = .ok q → Begins l ⟨slot, p, .mk s cs os :: ns⟩ ⟨slot + 1, q, cs⟩
  | otherwise {slot : Nat} {p : Progress} {s : Slot} {cs os ns : List Node} {head : Miss} :
      l.bindHead s slot p = .error head → head.mismatch.isSoft = true → os ≠ [] →
      Begins l ⟨slot, p, .mk s cs os :: ns⟩ ⟨slot + 1 + slotCount cs, p, os⟩
  | rest {slot : Nat} {p q : Progress} {n : Node} {ns : List Node} :
      n.walk l slot p = .done q → Begins l ⟨slot, p, n :: ns⟩ ⟨slot + n.size, q, ns⟩

inductive Comes (l : Line) (root : Call) : Call → Prop
  | refl : Comes l root root
  | tail {c d : Call} : Comes l root c → Begins l c d → Comes l root d

/-- The first node gives up its alternative, which has come to `r` when it failed. -/
inductive GivesUp (l : Line) : Call → Progress → Prop
  | intro {slot : Nat} {p r : Progress} {s : Slot} {cs os ns : List Node} {head inner : Miss} :
      l.bindHead s slot p = .error head → head.mismatch.isSoft = true → os ≠ [] →
      walkAll l (slot + 1 + slotCount cs) p os = .failed inner r →
      inner.mismatch.isSoft = true → inner.index ≤ p.pos →
      GivesUp l ⟨slot, p, .mk s cs os :: ns⟩ r

/-- The first node has bound its slot, and its children fail. -/
inductive Breaks (l : Line) : Call → Miss → Prop
  | intro {slot : Nat} {p q r : Progress} {s : Slot} {cs os ns : List Node} {miss : Miss} :
      l.bindHead s slot p = .ok q → walkAll l (slot + 1) q cs = .failed miss r →
      Breaks l ⟨slot, p, .mk s cs os :: ns⟩ miss

theorem walks_result (l : Line) (c : Call) : Walks l c.slot c.progress c.nodes (c.result l) :=
  walks_walkAll l c.slot c.progress c.nodes

theorem pos_le_result (l : Line) (c : Call) : c.progress.pos ≤ (c.result l).progress.pos :=
  (c.walks_result l).pos_le

theorem GivesUp.eq (h : c.GivesUp l r) : r = c.progress := by
  cases h with
  | intro _ _ _ hw _ hi => exact (walks_iff.mpr hw).eq_of_index_le hi

theorem Begins.pos_le (h : c.Begins l d) : c.progress.pos ≤ d.progress.pos := by
  cases h with
  | children hb =>
    dsimp only
    rw [Line.pos_of_bindHead hb]
    exact Nat.le_succ _
  | otherwise => exact Nat.le_refl _
  | @rest slot p q n ns hq =>
    have hpos := (walks_singleton l slot p n).pos_le
    rw [hq] at hpos
    exact hpos

/-- A failure that lies further on than where the inner walk began is the failure of the outer
one. -/
theorem Begins.failed (h : c.Begins l d) (hd : d.result l = .failed miss r)
    (hfar : ¬ (miss.mismatch.isSoft = true ∧ miss.index ≤ d.progress.pos)) :
    c.result l = .failed miss r := by
  cases h with
  | children hb => exact (Walks.childFailed hb (walks_iff.mpr hd)).walkAll_eq
  | otherwise hb hs ho => exact (Walks.branchFailed hb hs ho (walks_iff.mpr hd) hfar).walkAll_eq
  | rest hq =>
    rw [result, walkAll, hq]
    exact hd

theorem pos_le_of_walk {slot : Nat} {p q : Progress} {n : Node} (ns : List Node)
    (h : n.walk l slot p = .done q) : q.pos ≤ (walkAll l slot p (n :: ns)).progress.pos := by
  rw [walkAll, h]
  exact (walks_walkAll l _ q ns).pos_le

theorem Begins.result_le (h : c.Begins l d) :
    (d.result l).progress.pos ≤ (c.result l).progress.pos := by
  cases h with
  | @children slot p q s cs os ns hb =>
    dsimp only [result]
    cases hd : walkAll l (slot + 1) q cs with
    | done r =>
      have hr : (Node.mk s cs os).walk l slot p = .done r := by
        rw [walk, hb]
        exact hd
      exact pos_le_of_walk ns hr
    | failed miss r =>
      have hc : walkAll l slot p (.mk s cs os :: ns) = .failed miss r :=
        (Walks.childFailed hb (walks_iff.mpr hd)).walkAll_eq
      exact Nat.le_of_eq (congrArg (·.progress.pos) hc).symm
  | @otherwise slot p s cs os ns head hb hs ho =>
    dsimp only [result]
    cases hd : walkAll l (slot + 1 + slotCount cs) p os with
    | done r =>
      have hr : (Node.mk s cs os).walk l slot p = .done r := by simp [walk, hb, hs, ho, hd]
      exact pos_le_of_walk ns hr
    | failed miss r =>
      have hw := walks_iff.mpr hd
      by_cases hfar : miss.mismatch.isSoft = true ∧ miss.index ≤ p.pos
      · obtain rfl := hw.eq_of_index_le hfar.2
        exact pos_le_result l ⟨slot, r, .mk s cs os :: ns⟩
      · have hc : walkAll l slot p (.mk s cs os :: ns) = .failed miss r :=
          (Walks.branchFailed hb hs ho hw hfar).walkAll_eq
        exact Nat.le_of_eq (congrArg (·.progress.pos) hc).symm
  | rest hq =>
    simp only [result, walkAll, hq]
    exact Nat.le_refl _

theorem Comes.failed (h : root.Comes l c) (hc : c.result l = .failed miss r)
    (hfar : ¬ (miss.mismatch.isSoft = true ∧ miss.index ≤ c.progress.pos)) :
    root.result l = .failed miss r := by
  induction h with
  | refl => exact hc
  | tail _ hb ih =>
    refine ih (hb.failed hc hfar) fun ⟨hs, hi⟩ => hfar ⟨hs, ?_⟩
    exact Nat.le_trans hi hb.pos_le

/-- What the children of a bound node report lies behind the node. -/
theorem Breaks.failed (h : c.Breaks l miss) :
    ∃ r, c.result l = .failed miss r ∧ c.progress.pos < miss.index := by
  cases h with
  | @intro slot p q r s cs os ns _ hb hw =>
    have hcs := walks_iff.mpr hw
    have hpos : q.pos ≤ r.pos := hcs.pos_le
    have hindex := hcs.index_eq
    have hhead := Line.pos_of_bindHead hb
    refine ⟨r, (Walks.childFailed hb hcs).walkAll_eq, ?_⟩
    dsimp only
    omega

end Call

end Node

open Node

namespace Schema

/-- The walks with which the match of a line enters its grammar: of all nodes in fixed order, and of
one flag after the other. -/
inductive Enters (s : Schema) (l : Line) : Call → Prop
  | ordered : s.fixedOrder = true → Enters s l ⟨0, .start s.slotCount, s.arguments⟩
  | flag {f : Flags} {t : Token} {c : Node × Nat} : s.fixedOrder = false → s.Gathers l f →
      l.tokens[f.progress.pos]? = some t → Flags.next? s.flags f t = some c →
      f.rival? c.1.slot = none → Enters s l ⟨c.2, f.progress, [c.1]⟩

structure Visits (s : Schema) (tokens : List Token) (name : Option Token) (c : Call) : Prop where
  tokens_ne : tokens ≠ []
  offFree : s.OffFree tokens
  entered : ∃ root, s.Enters (s.line tokens name) root ∧ root.Comes (s.line tokens name) c

variable {s : Schema} {l : Line} {tokens : List Token} {name : Option Token} {c : Call}
  {miss : Miss} {r : Progress}

theorem Enters.stops (h : s.Enters l c) (hc : c.result l = .failed miss r) : s.Stops l miss r := by
  cases h with
  | ordered ho => exact .node ho hc
  | flag ho hf ht hnext hrival =>
    refine .flag ho hf ht (.failed hnext hrival ?_)
    rw [← hc, Call.result, walkAll_singleton]

theorem Visits.refused (h : s.Visits tokens name c) (hb : c.Breaks (s.line tokens name) miss) :
    (s.matchTokens tokens name).refusal? = some miss.refusal := by
  obtain ⟨r, hc, hfar⟩ := hb.failed
  obtain ⟨root, henters, hcomes⟩ := h.entered
  have hroot := hcomes.failed hc fun ⟨_, hi⟩ => Nat.not_lt.mpr hi hfar
  rw [refused_of_stops h.tokens_ne h.offFree (henters.stops hroot)]
  rfl

/-- Commitment is final. The match that keeps no copy of its progress gives the same result. Where
an alternative is given up, nothing was read or bound in it; each walk leaves the tokens it has read
behind it, and lies within those around it; the loop over flags goes onward. What the children of a
node report once the node has bound its slot is the refusal of the whole invocation. -/
theorem commitment_final (s : Schema) (tokens : List Token) (name : Option Token) :
    let l := s.line tokens name
    s.matchOnward tokens name = s.matchTokens tokens name ∧
      (∀ c, s.Visits tokens name c →
        (∀ r, c.GivesUp l r → r = c.progress) ∧
        c.progress.pos ≤ (c.result l).progress.pos ∧
        (∀ d, c.Begins l d → c.progress.pos ≤ d.progress.pos ∧
          (d.result l).progress.pos ≤ (c.result l).progress.pos) ∧
        ∀ miss, c.Breaks l miss →
          (s.matchTokens tokens name).refusal? = some miss.refusal) ∧
      ∀ f g t, s.Gathers l f → tokens[f.progress.pos]? = some t →
        Flags.Steps l s.allowArbitraryArguments s.flags f t g →
        f.progress.pos < g.progress.pos := by
  intro l
  refine ⟨s.matchOnward_eq tokens name, fun c hc => ⟨?_, ?_, ?_, ?_⟩, ?_⟩
  · exact fun r h => h.eq
  · exact c.pos_le_result l
  · exact fun d h => ⟨h.pos_le, h.result_le⟩
  · exact fun miss h => hc.refused h
  · exact fun f g t _ ht h => h.pos_lt ht

/-- Two numbers are no position, and an easing is neither a target nor a duration. -/
theorem commitment_final_position :
    let pos : List Token := [⟨.string, "pos", ⟨1, 6, 9⟩⟩, ⟨.number, "1", ⟨1, 10, 11⟩⟩,
      ⟨.number, "2", ⟨1, 12, 13⟩⟩]
    let check : Call := ⟨0, .start Catalogue.check.slotCount, Catalogue.check.arguments⟩
    let miss : Miss := ⟨.nothingLeft "<z>", 3, some ⟨1, 13, 13⟩⟩
    let easing : List Token := [⟨.string, "sine", ⟨1, 8, 12⟩⟩]
    let aim : Call := ⟨0, .start Catalogue.autoaim.slotCount, Catalogue.autoaim.arguments⟩
    (Catalogue.check.Visits pos none check ∧ check.Breaks (Catalogue.check.line pos none) miss ∧
        (Catalogue.check.matchTokens pos none).refusal? = some miss.refusal) ∧
      Catalogue.autoaim.Visits easing none aim ∧
        ∃ r, aim.GivesUp (Catalogue.autoaim.line easing none) r ∧ r = aim.progress := by
  intro pos check miss easing aim
  have hcheck : Catalogue.check.Visits pos none check :=
    ⟨by simp [pos], fun h => by simp [Catalogue.check] at h, check, .ordered rfl, .refl⟩
  have hbreaks : check.Breaks (Catalogue.check.line pos none) miss :=
    .intro (q := ⟨1, _⟩) (r := ⟨3, _⟩) rfl rfl
  have haim : Catalogue.autoaim.Visits easing none aim :=
    ⟨by simp [easing], fun _ => by decide +kernel, aim, .ordered rfl, .refl⟩
  have hgives : aim.GivesUp (Catalogue.autoaim.line easing none) aim.progress :=
    .intro rfl rfl (by simp) rfl rfl (Nat.le_refl _)
  obtain ⟨-, hrefused, -⟩ := commitment_final Catalogue.check pos none
  obtain ⟨-, hgiven, -⟩ := commitment_final Catalogue.autoaim easing none
  exact ⟨⟨hcheck, hbreaks, (hrefused check hcheck).2.2.2 miss hbreaks⟩, haim, aim.progress, hgives,
    (hgiven aim haim).1 _ hgives⟩

end Schema

end TasScript
