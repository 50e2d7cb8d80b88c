import Mathlib.Data.Finset.Basic
import TasScript.ActiveTools.Operation
import TasScript.Proofs.Application

/-! The log of the running tools tells which tools run. Who reads it from the start comes to the
same names after every operation, and no line of it speaks of a tool that is not in the state it
implies. -/

namespace TasScript

namespace ToolEvent

/-- The names of the running tools after one more line of the log. -/
def read (running : Finset String) (e : ToolEvent) : Finset String :=
  if e.action.name = "START" ∨ e.action.name = "REPLACE" then insert e.tool running
  else if e.action.name = "OFF" ∨ e.action.name = "EXPIRED" then running.erase e.tool
  else if e.action.name = "STOP_ALL" then ∅
  else running

/-- Only a tool that does not run is started, only one that does is replaced or ended, and a stop
lists all that run in rising order. -/
structure Fits (running : Finset String) (e : ToolEvent) : Prop where
  starts : e.action.name = "START" → e.tool ∉ running
  runs : e.action.name = "REPLACE" ∨ e.action.name = "OFF" ∨ e.action.name = "EXPIRED" →
    e.tool ∈ running
  stops : e.action.name = "STOP_ALL" →
    ∃ names, e.action.details = some ("stopped=" ++ quotedList names) ∧
      names.Pairwise (· < ·) ∧ ∀ n, n ∈ names ↔ n ∈ running

/-- The names that a log leaves, read from `running` on. -/
def readAll (running : Finset String) (es : List ToolEvent) : Finset String := es.foldl read running

/-- Each line fits the names that the lines before it leave. -/
def FitAll (running : Finset String) (es : List ToolEvent) : Prop :=
  ∀ past e future, es = past ++ e :: future → e.Fits (readAll running past)

variable {running : Finset String} {e : ToolEvent} {es fs : List ToolEvent} {n : String}

theorem readAll_append : readAll running (es ++ fs) = readAll (readAll running es) fs :=
  List.foldl_append

theorem fitAll_nil : FitAll running [] := by
  intro past e future h
  simp at h

theorem FitAll.cons (he : e.Fits running) (h : FitAll (e.read running) es) :
    FitAll running (e :: es) := by
  intro past f future hsplit
  cases past with
  | nil =>
    obtain ⟨rfl, -⟩ := List.cons.inj hsplit
    exact he
  | cons p past =>
    obtain ⟨rfl, hrest⟩ := List.cons.inj hsplit
    exact h past f future hrest

theorem FitAll.append (h : FitAll running es) (hf : FitAll (readAll running es) fs) :
    FitAll running (es ++ fs) := by
  induction es generalizing running with
  | nil => exact hf
  | cons e es ih =>
    have hhead : e.Fits running := h [] e es rfl
    have htail : FitAll (e.read running) es := fun past f future hsplit =>
      h (e :: past) f future (congrArg (e :: ·) hsplit)
    exact FitAll.cons hhead (ih htail hf)

theorem read_expired (h : e.action = .expired) : e.read running = running.erase e.tool := by
  simp [read, h, ToolAction.name]

theorem fits_expired (h : e.action = .expired) (hrun : e.tool ∈ running) : e.Fits running where
  starts := fun hs => by simp [h, ToolAction.name] at hs
  runs := fun _ => hrun
  stops := fun hs => by simp [h, ToolAction.name] at hs

theorem mem_readAll_expired (h : ∀ e ∈ es, e.action = .expired) :
    n ∈ readAll running es ↔ n ∈ running ∧ n ∉ es.map (·.tool) := by
  induction es generalizing running with
  | nil => simp [readAll]
  | cons e es ih =>
    have hrest : n ∈ readAll (e.read running) es ↔ n ∈ e.read running ∧ n ∉ es.map (·.tool) :=
      ih fun f hf => h f (List.mem_cons_of_mem _ hf)
    change n ∈ readAll (e.read running) es ↔ _
    rw [hrest, read_expired (h e List.mem_cons_self), Finset.mem_erase, List.map_cons,
      List.mem_cons, not_or, and_assoc, and_left_comm]

theorem fitAll_expired (h : ∀ e ∈ es, e.action = .expired) (hrun : ∀ e ∈ es, e.tool ∈ running)
    (hn : (es.map (·.tool)).Nodup) : FitAll running es := by
  induction es generalizing running with
  | nil => exact fitAll_nil
  | cons e es ih =>
    obtain ⟨hnot, hn⟩ := List.nodup_cons.mp hn
    have he : e.action = .expired := h e List.mem_cons_self
    refine FitAll.cons (fits_expired he (hrun e List.mem_cons_self)) ?_
    rw [read_expired he]
    refine ih (fun f hf => h f (List.mem_cons_of_mem _ hf)) (fun f hf => ?_) hn
    have hne : f.tool ≠ e.tool := fun heq => hnot (List.mem_map.mpr ⟨f, hf, heq⟩)
    exact Finset.mem_erase.mpr ⟨hne, hrun f (List.mem_cons_of_mem _ hf)⟩

end ToolEvent

theorem nameLe_iff {a b : String} : nameLe a b = true ↔ a ≤ b := by
  unfold nameLe
  rw [Bool.not_eq_true', decide_eq_false_iff_not]
  exact String.not_lt

theorem pairwise_sortedNames {names : List String} (h : names.Nodup) :
    (sortedNames names).Pairwise (· < ·) := by
  have htrans (a b c : String) (hab : nameLe a b = true) (hbc : nameLe b c = true) :
      nameLe a c = true :=
    nameLe_iff.mpr (String.le_trans (nameLe_iff.mp hab) (nameLe_iff.mp hbc))
  have htotal (a b : String) : (nameLe a b || nameLe b a) = true := by
    rw [Bool.or_eq_true, nameLe_iff, nameLe_iff]
    exact String.le_total a b
  have hsorted : (sortedNames names).Pairwise (fun a b => nameLe a b = true) :=
    List.pairwise_mergeSort htrans htotal names
  have hdistinct : (sortedNames names).Nodup := (List.mergeSort_perm names nameLe).nodup_iff.mpr h
  refine (hsorted.and hdistinct).imp fun {a b} hab => ?_
  by_contra hnot
  exact hab.2 (String.le_antisymm (nameLe_iff.mp hab.1) (String.not_lt.mp hnot))

namespace ActiveTools

open ToolEvent

variable {a b : ActiveTools} {q : Schema} {t : Tool} {tick : Int} {n : String}
  {es : List ToolEvent}

def running (a : ActiveTools) : Finset String := a.tools.names.toFinset

theorem mem_running : n ∈ a.running ↔ a.contains n = true :=
  List.mem_toFinset.trans Entries.mem_names_iff

/-- What the log says of a change of the running tools. -/
structure Told (a b : ActiveTools) (es : List ToolEvent) : Prop where
  read : readAll a.running es = b.running
  fit : FitAll a.running es
  before : ∀ e ∈ es, e.Fits a.running

theorem Told.quiet (a : ActiveTools) : Told a a [] :=
  ⟨rfl, fitAll_nil, by simp⟩

theorem Told.of_single {e : ToolEvent} (hread : e.read a.running = b.running)
    (hfit : e.Fits a.running) : Told a b [e] :=
  ⟨hread, FitAll.cons hfit fitAll_nil, by simpa using hfit⟩

theorem told_turnOff (a : ActiveTools) (q : Schema) (tick : Int) :
    Told a (a.turnOff q tick).active (a.turnOff q tick).events := by
  have hget := get?_turnOff a q tick
  unfold turnOff at hget ⊢
  by_cases hc : a.contains q.name = true
  · rw [if_pos hc] at hget ⊢
    refine .of_single ?_ ?_
    · ext n
      rw [mem_running, contains, hget]
      by_cases hn : q.name = n
      · simp [ToolEvent.read, ToolAction.name, hn]
      · simp [ToolEvent.read, ToolAction.name, hn, Ne.symm hn, mem_running, contains]
    · exact
        { starts := fun h => by simp [ToolAction.name] at h
          runs := fun _ => mem_running.mpr hc
          stops := fun h => by simp [ToolAction.name] at h }
  · rw [if_neg hc]
    exact .quiet a

theorem told_stopAll (hs : a.Sound) (q : Schema) (tick : Int) :
    Told a (a.stopAll q tick).active (a.stopAll q tick).events := by
  have hnames (n : String) : n ∈ sortedNames a.tools.names ↔ n ∈ a.running := by
    rw [running, List.mem_toFinset]
    exact (List.mergeSort_perm _ _).mem_iff
  refine .of_single ?_ ?_
  · simp [ToolEvent.read, ToolAction.name, stopAll, clear, running, Entries.names]
  · exact
      { starts := fun h => by simp [ToolAction.name] at h
        runs := fun h => by simp [ToolAction.name] at h
        stops := fun _ => ⟨_, rfl, pairwise_sortedNames hs.nodup, hnames⟩ }

theorem told_start (a : ActiveTools) (q : Schema) (t : Tool) (tick : Int) :
    Told a (a.start q t tick).active (a.start q t tick).events := by
  have hread (action : ToolAction) (h : action.name = "START" ∨ action.name = "REPLACE") :
      ToolEvent.read a.running ⟨tick, q.name, action⟩ = (a.start q t tick).active.running := by
    ext n
    rw [mem_running, contains, start, get?_set, ToolEvent.read, if_pos h, Finset.mem_insert]
    by_cases hn : q.name = n
    · simp [hn]
    · simp [hn, Ne.symm hn, mem_running, contains]
  by_cases hc : a.contains q.name = true
  · rw [show (a.start q t tick).events = [⟨tick, q.name, .replaced t.remaining⟩] by
      rw [start, if_pos hc]]
    refine .of_single (hread _ (.inr rfl)) ?_
    exact
      { starts := fun h => by simp [ToolAction.name] at h
        runs := fun _ => mem_running.mpr hc
        stops := fun h => by simp [ToolAction.name] at h }
  · rw [show (a.start q t tick).events = [⟨tick, q.name, .started t.remaining⟩] by
      rw [start, if_neg hc]]
    refine .of_single (hread _ (.inl rfl)) ?_
    exact
      { starts := fun _ h => hc (mem_running.mp h)
        runs := fun h => by simp [ToolAction.name] at h
        stops := fun h => by simp [ToolAction.name] at h }

theorem Sound.told_advance (h : a.Sound) : Told a a.advance.1 a.advance.2.2 := by
  let expired := a.advance.2.1
  have hevents : a.advance.2.2 = expired.map fun t => ⟨a.tick + 1, t.name, .expired⟩ := rfl
  have hnames : a.advance.2.2.map (·.tool) = expired.map (·.name) := by
    rw [hevents, List.map_map]
    rfl
  have haction : ∀ e ∈ a.advance.2.2, e.action = .expired := by
    rw [hevents]
    simp
  have hrun : ∀ e ∈ a.advance.2.2, e.tool ∈ a.running := by
    intro e he
    have hmem : e.tool ∈ expired.map (·.name) := hnames ▸ List.mem_map_of_mem he
    obtain ⟨t, ht, -⟩ := h.mem_expired_iff.mp hmem
    exact mem_running.mpr (by simp [contains, ht])
  refine ⟨?_, fitAll_expired haction hrun (hnames ▸ h.nodup_expired), fun e he =>
    fits_expired (haction e he) (hrun e he)⟩
  ext n
  rw [mem_readAll_expired haction, hnames, h.mem_expired_iff, mem_running, mem_running, contains,
    contains, h.get?_advance]
  cases hg : a.get? n with
  | none => simp
  | some t => by_cases hr : t.tickElapsed.remaining = some 0 <;> simp [after?, hr]

theorem name_of_toolOf {m : Match} (h : toolOf q m tick = .ok t) : t.name = q.name := by
  unfold toolOf at h
  split at h
  · simp at h
  · dsimp only at h
    split at h
    · obtain rfl := Except.ok.inj h
      rfl
    · split at h
      · simp at h
      · obtain rfl := Except.ok.inj h
        rfl

theorem perform_of_apply {m : Match} {c : Applied} (h : a.apply m tick = .ok c) :
    a.perform (.apply m tick) = (c.active, c.events) := by
  simp only [perform, h]

/-- A match that cannot start its tool cannot whatever runs; any other does nothing, or turns its
tool off, or stops all tools, or starts its tool. -/
theorem apply_forms (m : Match) (tick : Int) :
    (∃ d, ∀ a : ActiveTools, a.apply m tick = .error d) ∨
      (∀ a : ActiveTools, a.apply m tick = .ok { active := a }) ∨
      (∃ q, m.schema = some q ∧ ∀ a : ActiveTools, a.apply m tick = .ok (a.turnOff q tick)) ∨
      (∃ q, m.schema = some q ∧ q.stopsAllTools = true ∧
        ∀ a : ActiveTools, a.apply m tick = .ok (a.stopAll q tick)) ∨
      ∃ q t, m.schema = some q ∧ t.name = q.name ∧
        ∀ a : ActiveTools, a.apply m tick = .ok (a.start q t tick) := by
  cases hq : m.schema with
  | none => exact .inr (.inl fun a => by simp [apply, hq])
  | some q =>
    by_cases hok : m.succeeded = true
    · rcases apply_settled tick hq hok with
        ⟨-, happly⟩ | ⟨-, hstop, happly⟩ | ⟨-, -, -, happly⟩ | ⟨-, -, -, happly⟩
      · exact .inr (.inr (.inl ⟨q, rfl, happly⟩))
      · exact .inr (.inr (.inr (.inl ⟨q, rfl, hstop, happly⟩)))
      · cases ht : toolOf q m tick with
        | error d =>
          rw [ht] at happly
          exact .inl ⟨d, happly⟩
        | ok t =>
          rw [ht] at happly
          exact .inr (.inr (.inr (.inr ⟨q, t, rfl, name_of_toolOf ht, happly⟩)))
      · exact .inr (.inl happly)
    · cases hv : m.verdict with
      | refused r => exact .inr (.inl fun a => by simp [apply, hq, hv])
      | off => simp [Match.succeeded, hv] at hok
      | bound values extra => simp [Match.succeeded, hv] at hok

/-- What an operation comes to, with what it has logged. -/
theorem perform_cases (a : ActiveTools) (o : Operation) :
    a.perform o = (a, []) ∨
      (∃ q tick, a.perform o = ((a.turnOff q tick).active, (a.turnOff q tick).events)) ∨
      (∃ q tick, a.perform o = ((a.stopAll q tick).active, (a.stopAll q tick).events)) ∨
      (∃ q t tick, t.name = q.name ∧
        a.perform o = ((a.start q t tick).active, (a.start q t tick).events)) ∨
      a.perform o = (a.advance.1, a.advance.2.2) := by
  cases o with
  | advance => exact .inr (.inr (.inr (.inr rfl)))
  | apply m tick =>
    rcases apply_forms m tick with
      ⟨d, hd⟩ | happly | ⟨q, -, happly⟩ | ⟨q, -, -, happly⟩ | ⟨q, t, -, hname, happly⟩
    · exact .inl (by simp [perform, hd])
    · exact .inl (perform_of_apply (happly a))
    · exact .inr (.inl ⟨q, tick, perform_of_apply (happly a)⟩)
    · exact .inr (.inr (.inl ⟨q, tick, perform_of_apply (happly a)⟩))
    · exact .inr (.inr (.inr (.inl ⟨q, t, tick, hname, perform_of_apply (happly a)⟩)))

theorem Sound.perform (h : a.Sound) (o : Operation) : (a.perform o).1.Sound := by
  rcases a.perform_cases o with
    ho | ⟨q, tick, ho⟩ | ⟨q, tick, ho⟩ | ⟨q, t, tick, hname, ho⟩ | ho <;> rw [ho]
  · exact h
  · exact h.turnOff q tick
  · exact h.of_sublist (List.nil_sublist a.tools)
  · exact h.set hname
  · exact h.advance

theorem Sound.told (h : a.Sound) (o : Operation) : Told a (a.perform o).1 (a.perform o).2 := by
  rcases a.perform_cases o with
    ho | ⟨q, tick, ho⟩ | ⟨q, tick, ho⟩ | ⟨q, t, tick, -, ho⟩ | ho <;> rw [ho]
  · exact .quiet a
  · exact told_turnOff a q tick
  · exact told_stopAll h q tick
  · exact told_start a q t tick
  · exact h.told_advance

theorem Sound.run (h : a.Sound) (os : List Operation) : (a.run os).Sound := by
  induction os generalizing a with
  | nil => exact h
  | cons o os ih => exact ih (h.perform o)

theorem Sound.readAll_log (h : a.Sound) (os : List Operation) :
    readAll a.running (a.log os) = (a.run os).running := by
  induction os generalizing a with
  | nil => rfl
  | cons o os ih => rw [log, readAll_append, (h.told o).read, ih (h.perform o), ActiveTools.run]

theorem Sound.fitAll_log (h : a.Sound) (os : List Operation) : FitAll a.running (a.log os) := by
  induction os generalizing a with
  | nil => exact fitAll_nil
  | cons o os ih =>
    have htold := h.told o
    refine htold.fit.append ?_
    rw [htold.read]
    exact ih (h.perform o)

/-- The log, read from the start, leaves the names of the tools that run, and what is logged speaks
of them as they are: a line as the lines before it leave them, and as they were before its
operation. -/
theorem log_tells_running (os : List Operation) :
    let a := run {} os
    (∀ n, n ∈ readAll ∅ (log {} os) ↔ a.contains n = true) ∧
      FitAll ∅ (log {} os) ∧
      ∀ o, ∀ e ∈ (a.perform o).2, e.Fits a.running := by
  intro a
  have hread : readAll ∅ (log {} os) = a.running := sound_empty.readAll_log os
  refine ⟨fun n => ?_, sound_empty.fitAll_log os, fun o => ((sound_empty.run os).told o).before⟩
  rw [hread]
  exact mem_running

end ActiveTools

end TasScript
