import TasScript.Proofs.Shape

/-! Drafts without faults are the well-formed ones. Of the faults of any other, those of the shape
are those of its nodes, and a fault of the duration stands alone. -/

namespace TasScript

open Node

namespace Draft

/-- Every node is well-shaped, there is a name, and the two indexes point to something. -/
structure WellFormed (d : Draft) : Prop where
  shapes : ∀ s ∈ slots d.arguments, s.WellShaped
  name : d.name ≠ ""
  priorityIndex : 0 ≤ d.priorityIndex
  durationIndex : d.durationIndex = -1 ∨
    ∃ (i : Nat) (s : Slot), d.durationIndex = i ∧ (slots d.arguments)[i]? = some s ∧
      s.kind = .number

variable {d : Draft}

theorem durationCause?_eq_none_iff : d.durationCause? = none ↔ d.durationIndex = -1 ∨
    ∃ (i : Nat) (s : Slot), d.durationIndex = i ∧ (slots d.arguments)[i]? = some s ∧
      s.kind = .number := by
  unfold durationCause?
  by_cases hnone : d.durationIndex = -1
  · simp [hnone]
  by_cases hneg : d.durationIndex < 0
  · refine iff_of_false (by simp [hnone, hneg]) ?_
    rintro (h | ⟨i, s, hi, -⟩)
    · exact hnone h
    · omega
  obtain ⟨i, hi⟩ := Int.eq_ofNat_of_zero_le (Int.not_lt.mp hneg)
  simp only [hi, if_neg (show ¬ (i : Int) = -1 by omega), if_neg (show ¬ (i : Int) < 0 by omega),
    Int.toNat_natCast]
  cases hslot : (slots d.arguments)[i]? with
  | none =>
    refine iff_of_false (by simp) ?_
    rintro (h | ⟨j, s, hj, hs, -⟩)
    · omega
    · obtain rfl := Int.ofNat.inj hj
      simp [hslot] at hs
  | some s =>
    by_cases hk : s.kind = .number
    · exact iff_of_true (by simp [hk]) (.inr ⟨i, s, rfl, hslot, hk⟩)
    · refine iff_of_false (by simp [hk]) ?_
      rintro (h | ⟨j, r, hj, hr, hrk⟩)
      · omega
      · obtain rfl := Int.ofNat.inj hj
        obtain rfl := Option.some.inj (hslot.symm.trans hr)
        exact hk hrk

theorem isDuration_of_durationCause? {c : Cause} (h : d.durationCause? = some c) :
    c.isDuration = true := by
  unfold durationCause? at h
  split at h
  · simp at h
  · split at h
    · obtain rfl := Option.some.inj h
      rfl
    · dsimp only at h
      split at h
      · obtain rfl := Option.some.inj h
        rfl
      · split at h
        · simp at h
        · obtain rfl := Option.some.inj h
          rfl

theorem fieldFaults_eq_nil_iff : d.fieldFaults = [] ↔
    (∀ s ∈ slots d.arguments, s.WellShaped) ∧ d.name ≠ "" ∧ 0 ≤ d.priorityIndex := by
  rw [fieldFaults, List.append_eq_nil_iff, List.append_eq_nil_iff, faultsIn_eq_nil_iff]
  by_cases hname : d.name = ""
  · simp [hname]
  · by_cases hpriority : d.priorityIndex < 0
    · have hnot : ¬ 0 ≤ d.priorityIndex := by omega
      simp [hname, hpriority, hnot]
    · have hnonneg : 0 ≤ d.priorityIndex := by omega
      simp [hname, hpriority, hnonneg]

theorem faults_eq_nil_iff : d.faults = [] ↔ d.WellFormed := by
  constructor
  · intro h
    obtain ⟨hshapes, hname, hpriority⟩ := fieldFaults_eq_nil_iff.mp (fieldFaults_of_faults h)
    exact ⟨hshapes, hname, hpriority, durationCause?_eq_none_iff.mp (durationCause?_of_faults h)⟩
  · intro h
    have hfields := fieldFaults_eq_nil_iff.mpr ⟨h.shapes, h.name, h.priorityIndex⟩
    simp [faults, hfields, durationCause?_eq_none_iff.mpr h.durationIndex]

/-- Among the faults of single fields, those of the shape are those of the nodes. -/
theorem shapes_of_fieldFaults :
    d.fieldFaults.filter (fun f => f.cause.isShape) = faultsIn "arguments" 0 d.arguments := by
  have hnodes : (faultsIn "arguments" 0 d.arguments).filter (fun f => f.cause.isShape) =
      faultsIn "arguments" 0 d.arguments :=
    List.filter_eq_self.mpr fun f hf => isShape_of_mem_faultsIn hf
  rw [fieldFaults, List.filter_append, List.filter_append, hnodes]
  by_cases hname : d.name.isEmpty = true <;> by_cases hpriority : d.priorityIndex < 0 <;>
    simp [hname, hpriority, Cause.isShape]

theorem isDuration_of_mem_fieldFaults {f : Fault} (hf : f ∈ d.fieldFaults) :
    f.cause.isDuration = false := by
  rw [fieldFaults, List.mem_append, List.mem_append] at hf
  rcases hf with (hname | hnode) | hpriority
  · split at hname
    · rw [List.mem_singleton.mp hname]
      rfl
    · simp at hname
  · exact Cause.isDuration_of_isShape (isShape_of_mem_faultsIn hnode)
  · split at hpriority
    · rw [List.mem_singleton.mp hpriority]
      rfl
    · simp at hpriority

theorem faults_of_fieldFaults (h : d.fieldFaults ≠ []) : d.faults = d.fieldFaults :=
  if_neg (by simpa using h)

theorem faults_of_sound_fields (h : d.fieldFaults = []) :
    d.faults = d.durationCause?.toList.map Fault.ofCause :=
  if_pos (by simp [h])

theorem shapes_of_faults :
    d.faults.filter (fun f => f.cause.isShape) = faultsIn "arguments" 0 d.arguments := by
  by_cases hfields : d.fieldFaults = []
  · rw [faults_of_sound_fields hfields, ← shapes_of_fieldFaults, hfields, List.filter_nil,
      List.filter_eq_nil_iff]
    intro f hf hshape
    obtain ⟨c, hc, rfl⟩ := List.mem_map.mp hf
    have hduration : c.isDuration = true := isDuration_of_durationCause? (Option.mem_toList.mp hc)
    have hnot : c.isDuration = false := Cause.isDuration_of_isShape hshape
    simp [hnot] at hduration
  · rw [faults_of_fieldFaults hfields, shapes_of_fieldFaults]

theorem faults_of_isDuration {f : Fault} (hf : f ∈ d.faults) (hd : f.cause.isDuration = true) :
    d.faults = [f] := by
  by_cases hfields : d.fieldFaults = []
  · rw [faults_of_sound_fields hfields] at hf ⊢
    cases hc : d.durationCause? with
    | none => simp [hc] at hf
    | some c =>
      rw [hc] at hf
      rw [List.mem_singleton.mp hf]
      rfl
  · rw [faults_of_fieldFaults hfields] at hf
    simp [isDuration_of_mem_fieldFaults hf] at hd

end Draft

end TasScript
