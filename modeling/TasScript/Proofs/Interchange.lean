import TasScript.Proofs.ToolLog

/-! Invocations of different tools in any order. The running tools then stand in different orders in
their store, but whoever asks for one by name, counts them, lists them as they are executed or waits
for them to end is answered alike, then and after whatever is done to both. -/

namespace TasScript

namespace Tool

/-- In the order of execution. -/
def Precedes (t u : Tool) : Prop :=
  t.priority < u.priority ∨ t.priority = u.priority ∧ t.name < u.name

variable {t u : Tool}

theorem runsBefore_iff :
    t.runsBefore u = true ↔
      t.priority < u.priority ∨ t.priority = u.priority ∧ t.name ≤ u.name := by
  rw [runsBefore, Bool.or_eq_true, Bool.and_eq_true, decide_eq_true_iff, beq_iff_eq]
  exact or_congr Iff.rfl (and_congr Iff.rfl nameLe_iff)

theorem runsBefore_trans (t u v : Tool) (htu : t.runsBefore u = true)
    (huv : u.runsBefore v = true) : t.runsBefore v = true := by
  rw [runsBefore_iff] at *
  rcases htu with hlt | ⟨heq, hname⟩ <;> rcases huv with hlt' | ⟨heq', hname'⟩
  · exact .inl (Nat.lt_trans hlt hlt')
  · exact .inl (heq' ▸ hlt)
  · exact .inl (heq ▸ hlt')
  · exact .inr ⟨heq.trans heq', String.le_trans hname hname'⟩

theorem runsBefore_total (t u : Tool) : (t.runsBefore u || u.runsBefore t) = true := by
  rw [Bool.or_eq_true, runsBefore_iff, runsBefore_iff]
  rcases Nat.lt_trichotomy t.priority u.priority with hlt | heq | hlt
  · exact .inl (.inl hlt)
  · rcases String.le_total t.name u.name with hle | hle
    · exact .inl (.inr ⟨heq, hle⟩)
    · exact .inr (.inr ⟨heq.symm, hle⟩)
  · exact .inr (.inl hlt)

theorem precedes_of_runsBefore (h : t.runsBefore u = true) (hne : t.name ≠ u.name) :
    t.Precedes u := by
  rcases runsBefore_iff.mp h with hlt | ⟨heq, hle⟩
  · exact .inl hlt
  · exact .inr ⟨heq, Std.lt_of_le_of_ne hle hne⟩

theorem Precedes.asymm (h : t.Precedes u) : ¬ u.Precedes t := by
  rintro (hlt | ⟨heq, hname⟩) <;> rcases h with hlt' | ⟨heq', hname'⟩
  · exact Nat.lt_asymm hlt hlt'
  · omega
  · omega
  · exact String.lt_asymm hname hname'

end Tool

namespace ActiveTools

variable {a b c : ActiveTools} {m : Match} {n : String} {t : Tool} {tick : Int}

theorem Sound.mem_tools_iff (h : a.Sound) : (n, t) ∈ a.tools ↔ a.get? n = some t :=
  ⟨Entries.get?_of_mem h.nodup, Entries.mem_of_get?⟩

theorem perm_inOrder (a : ActiveTools) : a.inOrder.Perm (a.tools.map Prod.snd) :=
  List.mergeSort_perm _ _

theorem Sound.mem_inOrder_iff (h : a.Sound) : t ∈ a.inOrder ↔ a.get? t.name = some t := by
  rw [a.perm_inOrder.mem_iff, List.mem_map]
  constructor
  · rintro ⟨⟨n, u⟩, hmem, rfl⟩
    obtain rfl : u.name = n := h.named _ hmem
    exact h.mem_tools_iff.mp hmem
  · intro hget
    exact ⟨(t.name, t), h.mem_tools_iff.mpr hget, rfl⟩

theorem Sound.pairwise_inOrder (h : a.Sound) : a.inOrder.Pairwise Tool.Precedes := by
  have hsorted : a.inOrder.Pairwise fun t u => t.runsBefore u = true :=
    List.pairwise_mergeSort Tool.runsBefore_trans Tool.runsBefore_total _
  have hnames : (a.inOrder.map (·.name)).Nodup := by
    have hkeys : (a.tools.map Prod.snd).map (·.name) = a.tools.names := by
      rw [List.map_map]
      exact List.map_congr_left fun e he => h.named e he
    exact ((a.perm_inOrder.map _).nodup_iff).mpr (hkeys ▸ h.nodup)
  have hne : a.inOrder.Pairwise fun t u => t.name ≠ u.name := List.pairwise_map.mp hnames
  exact (hsorted.and hne).imp fun hab => Tool.precedes_of_runsBefore hab.1 hab.2

/-- The same tools run, in stores that may differ in order. -/
structure Alike (a b : ActiveTools) : Prop where
  left : a.Sound
  right : b.Sound
  get : ∀ n, a.get? n = b.get? n
  tick : a.tick = b.tick

namespace Alike

theorem refl (h : a.Sound) : Alike a a := ⟨h, h, fun _ => rfl, rfl⟩

theorem trans (h : Alike a b) (h' : Alike b c) : Alike a c :=
  ⟨h.left, h'.right, fun n => (h.get n).trans (h'.get n), h.tick.trans h'.tick⟩

theorem perm_tools (h : Alike a b) : a.tools.Perm b.tools := by
  refine (List.perm_ext_iff_of_nodup h.left.nodup.of_map h.right.nodup.of_map).mpr fun ⟨n, t⟩ => ?_
  rw [h.left.mem_tools_iff, h.right.mem_tools_iff, h.get]

theorem inOrder_eq (h : Alike a b) : a.inOrder = b.inOrder := by
  have hperm : a.inOrder.Perm b.inOrder :=
    a.perm_inOrder.trans ((h.perm_tools.map _).trans b.perm_inOrder.symm)
  -- of lists with the same members only one is strictly rising
  exact List.Perm.eq_of_pairwise (fun t u _ _ htu hut => absurd hut htu.asymm)
    h.left.pairwise_inOrder h.right.pairwise_inOrder hperm

theorem perm_expired (h : Alike a b) : a.advance.2.1.Perm b.advance.2.1 := by
  change ((elapse a.tools).2).Perm (elapse b.tools).2
  rw [elapse_snd, elapse_snd]
  exact (h.perm_tools.filter _).map _

theorem advance (h : Alike a b) : Alike a.advance.1 b.advance.1 where
  left := h.left.advance
  right := h.right.advance
  get := fun n => by rw [h.left.get?_advance, h.right.get?_advance, h.get]
  tick := congrArg (· + 1) h.tick

/-- A match is refused by both or does the same to both. -/
theorem apply_cases (h : Alike a b) (m : Match) (tick : Int) :
    (∃ d, a.apply m tick = .error d ∧ b.apply m tick = .error d) ∨
      ∃ x y, a.apply m tick = .ok x ∧ b.apply m tick = .ok y ∧ x.started = y.started ∧
        Alike x.active y.active := by
  rcases apply_forms m tick with
    ⟨d, hd⟩ | happly | ⟨q, -, happly⟩ | ⟨q, -, -, happly⟩ | ⟨q, t, -, hname, happly⟩
  · exact .inl ⟨d, hd a, hd b⟩
  · exact .inr ⟨_, _, happly a, happly b, rfl, h⟩
  · refine .inr ⟨_, _, happly a, happly b, ?_, h.left.turnOff q tick, h.right.turnOff q tick,
      fun n => ?_, ?_⟩
    · rw [started_turnOff, started_turnOff]
    · rw [get?_turnOff, get?_turnOff, h.get]
    · rw [tick_turnOff, tick_turnOff, h.tick]
  · exact .inr ⟨_, _, happly a, happly b, rfl, h.left.of_sublist (List.nil_sublist _),
      h.right.of_sublist (List.nil_sublist _), fun _ => rfl, h.tick⟩
  · refine .inr ⟨_, _, happly a, happly b, rfl, h.left.set hname, h.right.set hname, fun n => ?_,
      h.tick⟩
    exact (get?_set a q.name n t).trans ((h.get n) ▸ (get?_set b q.name n t).symm)

theorem perform (h : Alike a b) (o : Operation) : Alike (a.perform o).1 (b.perform o).1 := by
  cases o with
  | advance => exact h.advance
  | apply m tick =>
    rcases h.apply_cases m tick with ⟨d, ha, hb⟩ | ⟨x, y, ha, hb, -, hxy⟩
    · simpa only [ActiveTools.perform, ha, hb] using h
    · simpa only [ActiveTools.perform, ha, hb] using hxy

theorem run (h : Alike a b) (os : List Operation) : Alike (a.run os) (b.run os) := by
  induction os generalizing a b with
  | nil => exact h
  | cons o os ih => exact ih (h.perform o)

end Alike

/-- What can be learnt of the running tools; those that end on a tick are told in any order. -/
structure SameAnswers (a b : ActiveTools) : Prop where
  get : ∀ n, a.get? n = b.get? n
  size : a.size = b.size
  tick : a.tick = b.tick
  inOrder : a.inOrder = b.inOrder
  expired : a.advance.2.1.Perm b.advance.2.1
  started : ∀ m tick, (a.apply m tick).map (·.started) = (b.apply m tick).map (·.started)

theorem Alike.sameAnswers (h : Alike a b) : SameAnswers a b where
  get := h.get
  size := h.perm_tools.length_eq
  tick := h.tick
  inOrder := h.inOrder_eq
  expired := h.perm_expired
  started := by
    intro m tick
    rcases h.apply_cases m tick with ⟨d, ha, hb⟩ | ⟨x, y, ha, hb, hxy, -⟩
    · simp only [ha, hb, Except.map]
    · simp only [ha, hb, Except.map, hxy]

/-- Applies matches, each on its own tick, up to the first that cannot start its tool. -/
def applyAll (a : ActiveTools) : List (Match × Int) → Except Defect ActiveTools
  | [] => .ok a
  | (m, tick) :: is =>
    match a.apply m tick with
    | .ok x => x.active.applyAll is
    | .error d => .error d

def toolName? (i : Match × Int) : Option String := i.1.schema.map (·.name)

/-- Invocations of different tools, none of which stops the others or cannot start its own. -/
structure Independent (a : ActiveTools) (is : List (Match × Int)) : Prop where
  names : (is.map toolName?).Nodup
  keeps : ∀ i ∈ is, ∃ q, i.1.schema = some q ∧ q.stopsAllTools = false
  starts : ∀ i ∈ is, ∃ x, a.apply i.1 i.2 = .ok x

/-- Whatever runs, the invocation changes at most the tool that runs under one name. -/
def Touches (i : Match × Int) (name : String) (f : Option Tool → Option Tool) : Prop :=
  toolName? i = some name ∧ ∀ a : ActiveTools, ∃ x, a.apply i.1 i.2 = .ok x ∧
    (a.Sound → x.active.Sound) ∧ x.active.tick = a.tick ∧
      ∀ n, x.active.get? n = if name = n then f (a.get? n) else a.get? n

variable {i j : Match × Int} {is js : List (Match × Int)} {name other : String}
  {f g : Option Tool → Option Tool}

theorem Independent.exists_touches (h : a.Independent is) (hi : i ∈ is) :
    ∃ name f, Touches i name f := by
  obtain ⟨q, hq, hgo⟩ := h.keeps i hi
  obtain ⟨x, hx⟩ := h.starts i hi
  have hname : toolName? i = some q.name := by rw [toolName?, hq, Option.map_some]
  rcases apply_forms i.1 i.2 with
    ⟨d, hd⟩ | happly | ⟨p, hp, happly⟩ | ⟨p, hp, hstop, -⟩ | ⟨p, t, hp, ht, happly⟩
  · simp [hd] at hx
  · exact ⟨q.name, id, hname, fun b => ⟨_, happly b, id, rfl, fun n => by simp⟩⟩
  · obtain rfl := Option.some.inj (hq.symm.trans hp)
    exact ⟨q.name, fun _ => none, hname, fun b => ⟨_, happly b, fun hb => hb.turnOff q i.2,
      b.tick_turnOff q i.2, get?_turnOff b q i.2⟩⟩
  · obtain rfl := Option.some.inj (hq.symm.trans hp)
    simp [hgo] at hstop
  · obtain rfl := Option.some.inj (hq.symm.trans hp)
    exact ⟨q.name, fun _ => some t, hname, fun b => ⟨_, happly b, fun hb => hb.set ht, rfl,
      fun n => get?_set b q.name n t⟩⟩

theorem applyAll_cons {x : Applied} (h : a.apply i.1 i.2 = .ok x) (is : List (Match × Int)) :
    a.applyAll (i :: is) = x.active.applyAll is := by
  simp only [applyAll, h]

/-- Of two invocations of different tools neither sees what the other has changed. -/
theorem Touches.swap (hi : Touches i name f) (hj : Touches j other g) (hne : name ≠ other)
    (h : Alike a b) : ∃ c d, (∀ is, a.applyAll (i :: j :: is) = c.applyAll is) ∧
      (∀ is, b.applyAll (j :: i :: is) = d.applyAll is) ∧ Alike c d := by
  obtain ⟨x, hx, hxs, hxt, hxg⟩ := hi.2 a
  obtain ⟨y, hy, hys, hyt, hyg⟩ := hj.2 x.active
  obtain ⟨u, hu, hus, hut, hug⟩ := hj.2 b
  obtain ⟨v, hv, hvs, hvt, hvg⟩ := hi.2 u.active
  refine ⟨y.active, v.active, fun is => ?_, fun is => ?_, hys (hxs h.left), hvs (hus h.right), ?_,
    ?_⟩
  · rw [applyAll_cons hx, applyAll_cons hy]
  · rw [applyAll_cons hu, applyAll_cons hv]
  · intro n
    rw [hyg, hxg, hvg, hug, h.get]
    by_cases hn : name = n
    · have ho : other ≠ n := fun ho => hne (hn.trans ho.symm)
      simp only [if_pos hn, if_neg ho]
    · simp only [if_neg hn]
  · rw [hyt, hxt, hvt, hut, h.tick]

namespace Alike

theorem exists_apply (h : Alike a b) (hi : Touches i name f) :
    ∃ c d, (∀ is, a.applyAll (i :: is) = c.applyAll is) ∧
      (∀ is, b.applyAll (i :: is) = d.applyAll is) ∧ Alike c d := by
  obtain ⟨x, hx, hxs, hxt, hxg⟩ := hi.2 a
  obtain ⟨y, hy, hys, hyt, hyg⟩ := hi.2 b
  refine ⟨x.active, y.active, applyAll_cons hx, applyAll_cons hy, hxs h.left, hys h.right, ?_, ?_⟩
  · intro n
    rw [hxg, hyg, h.get]
  · rw [hxt, hyt, h.tick]

theorem applyAll_perm (hp : is.Perm js) (h : Alike a b)
    (hall : ∀ i ∈ is, ∃ name f, Touches i name f) (hn : (is.map toolName?).Nodup) :
    ∃ c d, a.applyAll is = .ok c ∧ b.applyAll js = .ok d ∧ Alike c d := by
  -- along the steps of the permutation; only neighbours that change places have to differ in name
  induction hp using List.Perm.recOnSwap' generalizing a b with
  | nil => exact ⟨a, b, rfl, rfl, h⟩
  | cons i _ ih =>
    obtain ⟨name, f, hi⟩ := hall i List.mem_cons_self
    obtain ⟨c, d, hc, hd, hcd⟩ := h.exists_apply hi
    rw [hc, hd]
    exact ih hcd (fun j hj => hall j (List.mem_cons_of_mem _ hj)) (List.nodup_cons.mp hn).2
  | swap' i j _ ih =>
    obtain ⟨name, f, hj⟩ := hall j List.mem_cons_self
    obtain ⟨other, g, hi⟩ := hall i (List.mem_cons_of_mem _ List.mem_cons_self)
    obtain ⟨hnot, hn⟩ := List.nodup_cons.mp hn
    have hne : name ≠ other := by
      rintro rfl
      exact hnot (by simp [hi.1, hj.1])
    obtain ⟨c, d, hc, hd, hcd⟩ := hj.swap hi hne h
    rw [hc, hd]
    refine ih hcd (fun k hk => hall k ?_) (List.nodup_cons.mp hn).2
    exact List.mem_cons_of_mem _ (List.mem_cons_of_mem _ hk)
  | trans hp _ ih ih' =>
    obtain ⟨c, d, hc, hd, hcd⟩ := ih h hall hn
    obtain ⟨d', e, hd', he, hde⟩ := ih' (.refl h.right) (fun i hi => hall i (hp.mem_iff.mpr hi))
      ((hp.map _).nodup_iff.mp hn)
    obtain rfl := Except.ok.inj (hd.symm.trans hd')
    exact ⟨c, e, hc, he, hcd.trans hde⟩

end Alike

/-- Invocations of different tools lead to the same, in whatever order they are applied: none fails,
and after any further operations all answers are the same. The order in which tools are executed is
strict after any operations, and has each running tool once. -/
theorem order_of_invocations_free :
    (∀ (a : ActiveTools) (is js : List (Match × Int)), a.Sound → a.Independent is → js.Perm is →
      ∃ b c, a.applyAll is = .ok b ∧ a.applyAll js = .ok c ∧
        ∀ os, SameAnswers (b.run os) (c.run os)) ∧
      ∀ os, (run {} os).Sound ∧
        (∀ t, t ∈ (run {} os).inOrder ↔ (run {} os).get? t.name = some t) ∧
          (run {} os).inOrder.length = (run {} os).size ∧
            (run {} os).inOrder.Pairwise Tool.Precedes := by
  constructor
  · intro a is js ha hi hp
    obtain ⟨b, c, hb, hc, hbc⟩ := Alike.applyAll_perm hp.symm (.refl ha)
      (fun i hmem => hi.exists_touches hmem) hi.names
    exact ⟨b, c, hb, hc, fun os => (hbc.run os).sameAnswers⟩
  · intro os
    have hs : (run {} os).Sound := sound_empty.run os
    refine ⟨hs, fun t => hs.mem_inOrder_iff, ?_, hs.pairwise_inOrder⟩
    rw [(perm_inOrder _).length_eq, List.length_map]
    rfl

/-- Two tools of one priority start and a third is turned off; the store shows which came first. -/
theorem order_of_invocations_free_tied :
    let tool (name : String) : Schema :=
      { name, fixedOrder := true, hasOff := true, registersActiveState := true,
        durationSlot := some 0, arguments := [.leaf .ticks], expectsArguments := true
        priority := 3 }
    let run (name : String) (tick : Int) : Match × Int :=
      ((tool name).matchTokens [⟨.number, "2", ⟨0, 5, 6⟩⟩] none, tick)
    let a : ActiveTools := ActiveTools.run {} [.apply (run "crouch" 0).1 0, .advance]
    let is := [run "walk" 1, run "jump" 4,
      ((tool "crouch").matchTokens [⟨.string, "off", ⟨0, 7, 10⟩⟩] none, 2)]
    a.Sound ∧ a.Independent is ∧ is.reverse.Perm is ∧
      ∃ b c, a.applyAll is = .ok b ∧ a.applyAll is.reverse = .ok c ∧
        b.tools.names = ["walk", "jump"] ∧ c.tools.names = ["jump", "walk"] ∧
        ∀ os, SameAnswers (b.run os) (c.run os) := by
  intro tool run a is
  have ha : a.Sound := sound_empty.run _
  have hi : a.Independent is :=
    { names := by simp [is, run, toolName?, Schema.matchTokens_schema, tool]
      keeps := by simp [is, run, Schema.matchTokens_schema, tool]
      starts := by
        simp only [is, List.forall_mem_cons]
        exact ⟨⟨_, rfl⟩, ⟨_, rfl⟩, ⟨_, rfl⟩, by simp⟩ }
  obtain ⟨b, c, hb, hc, hbc⟩ :=
    order_of_invocations_free.1 a is is.reverse ha hi (List.reverse_perm is)
  have hbn : (a.applyAll is).toOption.map (·.tools.names) = some ["walk", "jump"] := by
    decide +kernel
  have hcn : (a.applyAll is.reverse).toOption.map (·.tools.names) = some ["jump", "walk"] := by
    decide +kernel
  rw [hb] at hbn
  rw [hc] at hcn
  exact ⟨ha, hi, List.reverse_perm is, b, c, hb, hc, Option.some.inj hbn, Option.some.inj hcn, hbc⟩

end ActiveTools

end TasScript
