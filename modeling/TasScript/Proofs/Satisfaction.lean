import TasScript.Catalogue.Basic
import TasScript.Proofs.Account

/-! The slots that an accepted invocation binds follow its grammar. Of the children and the
alternative of a node only one side holds values, and no required node is left out. -/

namespace TasScript

open Node

variable {vs : List (Option Value)}

def Holds (vs : List (Option Value)) (i : Nat) : Prop := ∃ v, vs[i]? = some (some v)

def Blank (vs : List (Option Value)) (start count : Nat) : Prop :=
  ∀ k < count, vs[start + k]? = some none

namespace Node

mutual

/-- The node holds a value and its children are satisfied, or its alternative is in its place, or it
is optional and left out. What is not in use is empty. -/
def Satisfied (vs : List (Option Value)) (base : Nat) : Node → Prop
  | mk s cs os =>
    Holds vs base ∧ AllSatisfied vs (base + 1) cs ∧
        Blank vs (base + 1 + slotCount cs) (slotCount os) ∨
      Blank vs base 1 ∧ Blank vs (base + 1) (slotCount cs) ∧
        (os ≠ [] ∧ AllSatisfied vs (base + 1 + slotCount cs) os ∨
          s.required = false ∧ Blank vs base (1 + slotCount cs + slotCount os))

def AllSatisfied (vs : List (Option Value)) (base : Nat) : List Node → Prop
  | [] => True
  | n :: ns => Satisfied vs base n ∧ AllSatisfied vs (base + n.size) ns

end

def FlagSatisfied (vs : List (Option Value)) (base : Nat) (n : Node) : Prop :=
  Holds vs base ∧ AllSatisfied vs (base + 1) n.children ∧
      Blank vs (base + 1 + slotCount n.children) (slotCount n.otherwise) ∨
    n.slot.required = false ∧ Blank vs base n.size

end Node

/-- Of the `count` slots from `start` on, those that `g` writes hold values and no others. -/
def Shows (vs : List (Option Value)) (g : Ledger) (start count : Nat) : Prop :=
  ∀ i, start ≤ i → i < start + count →
    (i ∈ g.slots → Holds vs i) ∧ (i ∉ g.slots → vs[i]? = some none)

theorem shows_fill {g : Ledger} (hn : g.slots.Nodup) (count : Nat) :
    Shows (g.fill (List.replicate count none)) g 0 count := by
  intro i _ hi
  rw [Nat.zero_add] at hi
  refine ⟨fun hm => ?_, fun hm => ?_⟩
  · obtain ⟨t, v, he⟩ := Ledger.mem_slots_iff.mp hm
    exact ⟨v, Ledger.fill_of_mem _ hn (by simpa using hi) he⟩
  · rw [Ledger.fill_of_notMem _ hm, List.getElem?_replicate_of_lt hi]

namespace Shows

variable {g h : Ledger} {start count : Nat}

theorem mono {start' count' : Nat} (hv : Shows vs g start count) (hl : start ≤ start')
    (hr : start' + count' ≤ start + count) : Shows vs g start' count' :=
  fun i hli hri => hv i (by omega) (by omega)

theorem left {part : Nat} (hv : Shows vs (g ++ h) start count) (hp : part ≤ count)
    (hh : ∀ i ∈ h.slots, start + part ≤ i) : Shows vs g start part := by
  intro i hl hr
  have hi : i ∉ h.slots := fun hm => by
    have := hh i hm
    omega
  simpa [hi] using hv i hl (by omega)

theorem right {start' count' : Nat} (hv : Shows vs (g ++ h) start count) (hl : start ≤ start')
    (hr : start' + count' ≤ start + count) (hg : ∀ i ∈ g.slots, i < start') :
    Shows vs h start' count' := by
  intro i hli hri
  have hi : i ∉ g.slots := fun hm => by
    have := hg i hm
    omega
  simpa [hi] using hv i (by omega) (by omega)

theorem blank {start' count' : Nat} (hv : Shows vs g start count) (hl : start ≤ start')
    (hr : start' + count' ≤ start + count)
    (hg : ∀ i ∈ g.slots, i < start' ∨ start' + count' ≤ i) : Blank vs start' count' := by
  intro k hk
  have hi : start' + k ∉ g.slots := fun hm => by
    have := hg _ hm
    omega
  exact (hv (start' + k) (by omega) (by omega)).2 hi

end Shows

theorem Derives.allSatisfied {base : Nat} {ns : List Node} {g : Ledger} (hd : Derives base ns g)
    (hv : Shows vs g base (slotCount ns)) : AllSatisfied vs base ns := by
  induction hd with
  | nil base => trivial
  | @bound base s cs os ns t v g h hb hg hh ihg ihh =>
    -- the entries of the later nodes lie behind the block of this one, and its own before theirs
    have hsize : (mk s cs os).size = 1 + slotCount cs + slotCount os := rfl
    rw [slotCount] at hv
    have hown : Shows vs (.bound t base v :: g) base (mk s cs os).size :=
      hv.left (h := h) (by omega) fun i hi => (hh.mem_range hi).1
    have hbelow : Shows vs g (base + 1) (slotCount cs + slotCount os) :=
      hown.right (g := [.bound t base v]) (by omega) (by omega) (by simp)
    have hrest : Shows vs h (base + (mk s cs os).size) (slotCount ns) := by
      refine hv.right (g := .bound t base v :: g) (by omega) (by omega) fun i hi => ?_
      rcases List.mem_cons.mp hi with rfl | hi
      · omega
      · have := hg.mem_range hi
        omega
    refine ⟨.inl ⟨(hown base (by omega) (by omega)).1 (by simp), ihg ?_, ?_⟩, ihh hrest⟩
    · exact hbelow.mono (by omega) (by omega)
    · exact hbelow.blank (by omega) (by omega) fun i hi => .inl (hg.mem_range hi).2
  | @otherwise base s cs os ns g h hne hg hh ihg ihh =>
    have hsize : (mk s cs os).size = 1 + slotCount cs + slotCount os := rfl
    rw [slotCount] at hv
    have hown : Shows vs g base (mk s cs os).size :=
      hv.left (by omega) fun i hi => (hh.mem_range hi).1
    have hrest : Shows vs h (base + (mk s cs os).size) (slotCount ns) := by
      refine hv.right (by omega) (by omega) fun i hi => ?_
      have := hg.mem_range hi
      omega
    have hlow : ∀ i ∈ g.slots, base + 1 + slotCount cs ≤ i := fun i hi => (hg.mem_range hi).1
    refine ⟨.inr ⟨?_, ?_, .inl ⟨hne, ihg ?_⟩⟩, ihh hrest⟩
    · refine hown.blank (by omega) (by omega) fun i hi => .inr ?_
      have := hlow i hi
      omega
    · exact hown.blank (by omega) (by omega) fun i hi => .inr (hlow i hi)
    · exact hown.mono (by omega) (by omega)
  | @skipped base s cs os ns h hr hh ih =>
    have hsize : (mk s cs os).size = 1 + slotCount cs + slotCount os := rfl
    rw [slotCount] at hv
    have hlow : ∀ i ∈ h.slots, base + (mk s cs os).size ≤ i := fun i hi => (hh.mem_range hi).1
    have hnone : ∀ start count, base ≤ start → start + count ≤ base + (mk s cs os).size →
        Blank vs start count := by
      intro start count hl hu
      refine hv.blank hl (by omega) fun i hi => .inr ?_
      have := hlow i hi
      omega
    refine ⟨.inr ⟨hnone _ _ (by omega) (by omega), hnone _ _ (by omega) (by omega),
      .inr ⟨hr, hnone _ _ (by omega) (by omega)⟩⟩, ih ?_⟩
    exact hv.mono (by omega) (by omega)

theorem FlagRun.flagSatisfied {ns : List Node} {used : List Nat} {g : Ledger} {base i : Nat}
    {n : Node} (hg : FlagRun (placed base ns) used g) (hn : (n, i) ∈ placed base ns)
    (hr : n.slot.required = true → i ∈ used) (hv : Shows vs g base (slotCount ns)) :
    n.FlagSatisfied vs i := by
  have hrange := mem_placed_range hn
  have hsize := n.size_eq
  by_cases hi : i ∈ used
  · obtain ⟨h, hd, hb⟩ := hg.exists_block hn hi
    have hbelow : Shows vs h (i + 1) (slotCount n.children + slotCount n.otherwise) := by
      intro x hl hu
      have hx : x ∈ g.slots ↔ x ∈ h.slots := by
        rw [hb x (by omega) (by omega)]
        exact or_iff_right (by omega)
      rw [← hx]
      exact hv x (by omega) (by omega)
    refine .inl ⟨?_, hd.allSatisfied ?_, ?_⟩
    · have hmem : i ∈ g.slots := (hb i (by omega) (by omega)).mpr (.inl rfl)
      exact (hv i (by omega) (by omega)).1 hmem
    · exact hbelow.mono (by omega) (by omega)
    · exact hbelow.blank (by omega) (by omega) fun x hx => .inl (hd.mem_range hx).2
  · refine .inr ⟨by simpa using mt hr hi, ?_⟩
    intro k hk
    have hnot := hg.notMem_of_notMem_used hn hi (x := i + k) (by omega)
    exact (hv (i + k) (by omega) (by omega)).2 hnot

namespace Schema

variable {s : Schema} {g : Ledger} {tokens : List Token} {values : List (Option Value)}
  {extra : List Token}

theorem Accounts.shows (h : s.Accounts g tokens values extra) : Shows values g 0 s.slotCount := by
  rw [← h.fill_eq]
  exact shows_fill h.parses.slots_nodup s.slotCount

/-- Soundness for the grammar. The slots that are bound show a derivation: in fixed order each
top-level node is satisfied, and among flags each is taken with its children or left out. -/
theorem grammar_satisfied (s : Schema) (tokens : List Token) (name : Option Token)
    (values : List (Option Value)) (extra : List Token) (hne : tokens ≠ [])
    (h : (s.matchTokens tokens name).verdict = .bound values extra) :
    (s.fixedOrder = true → AllSatisfied values 0 s.arguments) ∧
      (s.fixedOrder = false → ∀ c ∈ placed 0 s.arguments, c.1.FlagSatisfied values c.2) := by
  obtain ⟨_, hw⟩ := (walk_of_bound h).resolve_left fun hnil => hne hnil.1
  obtain ⟨g, hg⟩ := walk_accounts hw
  have hshows := hg.shows
  cases hg.parses with
  | @ordered b ts ho hd =>
    refine ⟨fun _ => hd.allSatisfied fun i hl hr => ?_, fun hf => by simp [ho] at hf⟩
    simpa using hshows i hl hr
  | flags hf hr hreq =>
    refine ⟨fun ho => by simp [hf] at ho, fun _ c hc => ?_⟩
    exact hr.flagSatisfied hc (hreq c hc) hshows

/-- A direction is the alternative of an alternative; the duration stands behind both. -/
theorem grammar_satisfied_direction :
    let tokens : List Token := [⟨.string, "left", ⟨1, 5, 9⟩⟩, ⟨.number, "10", ⟨1, 10, 12⟩⟩]
    let values := [none, none, none, some (.word "left"), none, some (.amount (.whole 10))]
    tokens ≠ [] ∧ (Catalogue.look.matchTokens tokens none).verdict = .bound values [] ∧
      AllSatisfied values 0 Catalogue.look.arguments := by
  intro tokens values
  have hne : tokens ≠ [] := by simp [tokens]
  have h : (Catalogue.look.matchTokens tokens none).verdict = .bound values [] := by
    decide +kernel
  exact ⟨hne, h, (grammar_satisfied Catalogue.look tokens none values [] hne h).1 rfl⟩

end Schema

end TasScript
