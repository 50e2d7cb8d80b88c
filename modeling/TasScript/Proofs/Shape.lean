import TasScript.Grammar.Schema

/-! Which nodes of a grammar are to blame. A node is where its own attributes do not go together
while all that stands below it is sound; every such node is reported once, in the order in which the
nodes are written. -/

namespace TasScript

def Cause.isShape : Cause → Bool
  | numericKeyword _ | numericWord | misplacedChoices | emptyInterval _ _ => true
  | _ => false

def Cause.isDuration : Cause → Bool
  | durationOutside _ _ _ | durationNotNumeric _ _ => true
  | _ => false

theorem Cause.isDuration_of_isShape {c : Cause} (h : c.isShape = true) : c.isDuration = false := by
  cases c <;> first | rfl | simp [isShape] at h

namespace Slot

/-- The attributes go together. A bound that is not a number is no obstacle. -/
structure WellShaped (s : Slot) : Prop where
  keyword : s.text.isSome = true → s.kind = .string
  word : s.kind = .string →
    s.unit = none ∧ s.integer = false ∧ s.minimum = none ∧ s.maximum = none
  choices : s.choices.isSome = true → s.kind = .string ∧ s.text = none
  interval : ∀ lo hi, s.minimum = some lo → s.maximum = some hi → ¬ hi < lo

variable {s : Slot} {c : Cause}

theorem hasNumericRule_eq_false_iff : s.hasNumericRule = false ↔
    s.unit = none ∧ s.integer = false ∧ s.minimum = none ∧ s.maximum = none := by
  simp [hasNumericRule, and_assoc]

/-- The bounds of a slot whose other attributes go together. -/
def intervalCause? (s : Slot) : Option Cause :=
  match s.minimum, s.maximum with
  | some lo, some hi => if hi < lo then some (.emptyInterval lo hi) else none
  | _, _ => none

theorem intervalCause?_eq_none_iff : s.intervalCause? = none ↔
    ∀ lo hi, s.minimum = some lo → s.maximum = some hi → ¬ hi < lo := by
  unfold intervalCause?
  cases s.minimum <;> cases s.maximum <;> simp

theorem shapeCause?_of_number (hk : s.kind = .number) : s.shapeCause? =
    match s.text with
    | some text => some (.numericKeyword text)
    | none => if s.choices.isSome then some .misplacedChoices else s.intervalCause? := by
  unfold shapeCause? intervalCause?
  cases s.text <;> cases s.minimum <;> cases s.maximum <;> simp [hk]

theorem shapeCause?_of_string (hk : s.kind = .string) : s.shapeCause? =
    if s.hasNumericRule then some .numericWord
    else if s.choices.isSome && s.text.isSome then some .misplacedChoices
    else s.intervalCause? := by
  unfold shapeCause? intervalCause?
  cases s.text <;> cases s.minimum <;> cases s.maximum <;> simp [hk]

theorem shapeCause?_eq_none_iff : s.shapeCause? = none ↔ s.WellShaped := by
  cases hk : s.kind with
  | number =>
    rw [shapeCause?_of_number hk]
    constructor
    · intro h
      cases ht : s.text with
      | some text => simp [ht] at h
      | none =>
        simp only [ht] at h
        split at h
        · simp at h
        · rename_i hc
          exact ⟨by simp [ht], by simp [hk], by simp [hc], intervalCause?_eq_none_iff.mp h⟩
    · intro h
      have ht : s.text = none := by
        cases ht : s.text with
        | none => rfl
        | some text => simpa [hk] using h.keyword (by simp [ht])
      have hc : ¬ s.choices.isSome = true := by
        intro hc
        simpa [hk] using (h.choices hc).1
      simp only [ht, if_neg hc]
      exact intervalCause?_eq_none_iff.mpr h.interval
  | string =>
    rw [shapeCause?_of_string hk]
    constructor
    · intro h
      split at h
      · simp at h
      · rename_i hn
        split at h
        · simp at h
        · rename_i hc
          refine ⟨fun _ => hk, fun _ => ?_, fun hs => ⟨hk, ?_⟩, intervalCause?_eq_none_iff.mp h⟩
          · exact hasNumericRule_eq_false_iff.mp (by simpa using hn)
          · simpa [hs] using hc
    · intro h
      have hn : s.hasNumericRule = false := hasNumericRule_eq_false_iff.mpr (h.word hk)
      have hc : (s.choices.isSome && s.text.isSome) = false := by
        cases hs : s.choices.isSome with
        | false => rfl
        | true => simp [(h.choices hs).2]
      simp only [hn, hc, Bool.false_eq_true, if_false]
      exact intervalCause?_eq_none_iff.mpr h.interval

instance (s : Slot) : Decidable s.WellShaped := decidable_of_iff _ shapeCause?_eq_none_iff

theorem isShape_of_shapeCause? (h : s.shapeCause? = some c) : c.isShape = true := by
  have hinterval (h : s.intervalCause? = some c) : c.isShape = true := by
    unfold intervalCause? at h
    split at h
    · split at h
      · obtain rfl := Option.some.inj h
        rfl
      · simp at h
    · simp at h
  cases hk : s.kind with
  | number =>
    rw [shapeCause?_of_number hk] at h
    split at h
    · obtain rfl := Option.some.inj h
      rfl
    · split at h
      · obtain rfl := Option.some.inj h
        rfl
      · exact hinterval h
  | string =>
    rw [shapeCause?_of_string hk] at h
    split at h
    · obtain rfl := Option.some.inj h
      rfl
    · split at h
      · obtain rfl := Option.some.inj h
        rfl
      · exact hinterval h

end Slot

namespace Node

mutual

theorem faults_eq_nil_iff : (n : Node) → (n.faults = [] ↔ ∀ s ∈ n.preorder, s.WellShaped)
  | mk s cs os => by
    have hcs := faultsIn_eq_nil_iff "children" 0 cs
    have hos := faultsIn_eq_nil_iff "otherwise_children" 0 os
    simp only [faults, preorder, List.forall_mem_cons, List.forall_mem_append, ← hcs, ← hos]
    rw [← List.append_eq_nil_iff, ← Slot.shapeCause?_eq_none_iff]
    by_cases hinner : faultsIn "children" 0 cs ++ faultsIn "otherwise_children" 0 os = []
    · rw [hinner]
      cases s.shapeCause? <;> simp
    · simp [hinner]

theorem faultsIn_eq_nil_iff (field : String) (index : Nat) : (ns : List Node) →
    (faultsIn field index ns = [] ↔ ∀ s ∈ slots ns, s.WellShaped)
  | [] => by simp [faultsIn, slots]
  | n :: ns => by
    rw [faultsIn, slots, List.append_eq_nil_iff, List.map_eq_nil_iff, List.forall_mem_append,
      faults_eq_nil_iff n, faultsIn_eq_nil_iff field (index + 1) ns]

end

mutual

/-- A node with all below it, depth first, each with the path that leads to it. -/
def occurrences (path : List Step) : Node → List (List Step × Node)
  | mk s cs os =>
    (path, mk s cs os) ::
      (occurrencesIn path "children" 0 cs ++ occurrencesIn path "otherwise_children" 0 os)

def occurrencesIn (path : List Step) (field : String) (index : Nat) :
    List Node → List (List Step × Node)
  | [] => []
  | n :: ns =>
    occurrences (path ++ [.field field, .item index]) n ++ occurrencesIn path field (index + 1) ns

end

/-- The node is ill-shaped, and no node below it is. -/
def IsToBlame (n : Node) : Prop :=
  ¬ n.slot.WellShaped ∧ ∀ s ∈ slots n.children ++ slots n.otherwise, s.WellShaped

instance (n : Node) : Decidable n.IsToBlame :=
  inferInstanceAs (Decidable (_ ∧ _))

/-- The nodes to blame, each with its path and the first rule it breaks. -/
def blame (os : List (List Step × Node)) : List (List Step × Option Cause) :=
  (os.filter fun o => o.2.IsToBlame).map fun o => (o.1, o.2.slot.shapeCause?)

theorem blame_append (as bs : List (List Step × Node)) :
    blame (as ++ bs) = blame as ++ blame bs := by
  simp [blame]

theorem blame_cons_of_sound {o : List Step × Node} (os : List (List Step × Node))
    (h : ¬ o.2.IsToBlame) : blame (o :: os) = blame os := by
  simp [blame, h]

theorem blame_cons {o : List Step × Node} (os : List (List Step × Node)) (h : o.2.IsToBlame) :
    blame (o :: os) = (o.1, o.2.slot.shapeCause?) :: blame os := by
  simp [blame, h]

theorem isToBlame_iff {s : Slot} {cs os : List Node} :
    (mk s cs os).IsToBlame ↔ ¬ s.WellShaped ∧
      faultsIn "children" 0 cs ++ faultsIn "otherwise_children" 0 os = [] := by
  rw [IsToBlame, List.forall_mem_append, List.append_eq_nil_iff, faultsIn_eq_nil_iff,
    faultsIn_eq_nil_iff]
  rfl

end Node

/-- A fault as it is seen from further out. -/
def Fault.seen (path : List Step) (f : Fault) : List Step × Option Cause :=
  (path ++ f.path, some f.cause)

namespace Node

mutual

theorem seen_faults (path : List Step) : (n : Node) →
    n.faults.map (Fault.seen path) = blame (n.occurrences path)
  | mk s cs os => by
    have hinner : (faultsIn "children" 0 cs ++ faultsIn "otherwise_children" 0 os).map
        (Fault.seen path) = blame (occurrencesIn path "children" 0 cs ++
          occurrencesIn path "otherwise_children" 0 os) := by
      rw [List.map_append, blame_append, seen_faultsIn path _ 0 cs, seen_faultsIn path _ 0 os]
    simp only [faults, occurrences]
    -- the attributes of a node are looked at only where all below it is sound
    by_cases hsound : faultsIn "children" 0 cs ++ faultsIn "otherwise_children" 0 os = []
    · rw [hsound, List.map_nil] at hinner
      rw [hsound, List.isEmpty_nil, if_pos rfl]
      cases hc : s.shapeCause? with
      | none =>
        have hnot : ¬ (mk s cs os).IsToBlame := fun h =>
          (isToBlame_iff.mp h).1 (Slot.shapeCause?_eq_none_iff.mp hc)
        rw [blame_cons_of_sound _ hnot, ← hinner]
        rfl
      | some c =>
        have hill : ¬ s.WellShaped := by simp [← Slot.shapeCause?_eq_none_iff, hc]
        have hblame : (mk s cs os).IsToBlame := isToBlame_iff.mpr ⟨hill, hsound⟩
        rw [blame_cons _ hblame, ← hinner, slot, hc]
        simp [Fault.seen, Fault.ofCause]
    · have hnot : ¬ (mk s cs os).IsToBlame := fun h => hsound (isToBlame_iff.mp h).2
      rw [if_neg (by simpa using hsound), hinner, blame_cons_of_sound _ hnot]

theorem seen_faultsIn (path : List Step) (field : String) (index : Nat) : (ns : List Node) →
    (faultsIn field index ns).map (Fault.seen path) = blame (occurrencesIn path field index ns)
  | [] => rfl
  | n :: ns => by
    rw [faultsIn, occurrencesIn, blame_append, List.map_append, List.map_map,
      ← seen_faults _ n, ← seen_faultsIn path field (index + 1) ns]
    congr 2
    funext f
    simp [Fault.seen, Fault.under]

end

theorem isShape_of_mem_faultsIn {field : String} {index : Nat} {ns : List Node} {f : Fault}
    (hf : f ∈ faultsIn field index ns) : f.cause.isShape = true := by
  have hseen : Fault.seen [] f ∈ blame (occurrencesIn [] field index ns) := by
    rw [← seen_faultsIn]
    exact List.mem_map_of_mem hf
  obtain ⟨o, -, ho⟩ := List.mem_map.mp hseen
  exact Slot.isShape_of_shapeCause? (Prod.mk.inj ho).2

end Node

end TasScript
