import TasScript.Proofs.Commitment

/-! The numbers of slots. A walk counts them by the sizes of the nodes that it leaves behind or goes
into; along any way into a forest, the count is the place of that very node in pre-order. The ways
are told apart by their moves, so that equal nodes in different places stay different. -/

namespace TasScript

/-- One move in a forest, from a node to the one behind it or to the first one in a list below
it. -/
inductive Move where
  | next
  | children
  | otherwise
  deriving Repr, DecidableEq

namespace Node

/-- The nodes from the end of a way on; the first of them is where the way leads. -/
def ahead : List Node → List Move → List Node
  | ns, [] => ns
  | [], _ :: _ => []
  | _ :: ns, .next :: w => ahead ns w
  | n :: _, .children :: w => ahead n.children w
  | n :: _, .otherwise :: w => ahead n.otherwise w

/-- The slot number at the end of a way, counted as a walk counts. -/
def address (base : Nat) : List Node → List Move → Nat
  | n :: ns, .next :: w => address (base + n.size) ns w
  | n :: _, .children :: w => address (base + 1) n.children w
  | n :: _, .otherwise :: w => address (base + 1 + slotCount n.children) n.otherwise w
  | _, _ => base

/-- The way leads to the node `n`, whose slot has the number `i` where the first has `base`. -/
def Leads (base : Nat) (ns : List Node) (w : List Move) (n : Node) (i : Nat) : Prop :=
  (ahead ns w).head? = some n ∧ address base ns w = i

mutual

/-- The ways to a node and to all below it, in pre-order. -/
def waysBelow : Node → List (List Move)
  | mk _ cs os => [] :: ((ways cs).map (.children :: ·) ++ (ways os).map (.otherwise :: ·))

/-- The ways to all nodes of a forest, in the order of their slots. -/
def ways : List Node → List (List Move)
  | [] => []
  | n :: ns => waysBelow n ++ (ways ns).map (.next :: ·)

end

variable {base i j : Nat} {m n : Node} {ns : List Node} {v w : List Move}

@[simp] theorem ahead_nil (ns : List Node) : ahead ns [] = ns := by
  cases ns <;> rfl

@[simp] theorem address_nil (base : Nat) (ns : List Node) : address base ns [] = base := by
  cases ns <;> rfl

@[simp] theorem ahead_nowhere (w : List Move) : ahead [] w = [] := by
  cases w <;> rfl

@[simp] theorem address_nowhere (base : Nat) (w : List Move) : address base [] w = base := by
  cases w <;> rfl

theorem ahead_append (ns : List Node) (v w : List Move) :
    ahead ns (v ++ w) = ahead (ahead ns v) w := by
  induction v generalizing ns with
  | nil => simp
  | cons move v ih =>
    cases ns with
    | nil => simp
    | cons n ns => cases move <;> exact ih _

theorem address_append (base : Nat) (ns : List Node) (v w : List Move) :
    address base ns (v ++ w) = address (address base ns v) (ahead ns v) w := by
  induction v generalizing base ns with
  | nil => simp
  | cons move v ih =>
    cases ns with
    | nil => simp
    | cons n ns => cases move <;> exact ih _ _

theorem leads_append_iff :
    Leads base ns (v ++ w) n i ↔ Leads (address base ns v) (ahead ns v) w n i := by
  rw [Leads, ahead_append, address_append]
  exact Iff.rfl

theorem Leads.exists_ahead (h : Leads base ns w n i) : ∃ rest, ahead ns w = n :: rest := by
  have hnode := h.1
  cases hw : ahead ns w with
  | nil => simp [hw] at hnode
  | cons k rest => exact ⟨rest, by simpa [hw] using hnode⟩

theorem Leads.children_iff (h : Leads base ns w n i) :
    Leads base ns (w ++ .children :: v) m j ↔ Leads (i + 1) n.children v m j := by
  obtain ⟨rest, hrest⟩ := h.exists_ahead
  rw [leads_append_iff, hrest, h.2]
  exact Iff.rfl

theorem Leads.otherwise_iff (h : Leads base ns w n i) :
    Leads base ns (w ++ .otherwise :: v) m j ↔
      Leads (i + 1 + slotCount n.children) n.otherwise v m j := by
  obtain ⟨rest, hrest⟩ := h.exists_ahead
  rw [leads_append_iff, hrest, h.2]
  exact Iff.rfl

theorem ways_cons (n : Node) (ns : List Node) : ways (n :: ns) =
    [] :: ((ways n.children).map (.children :: ·) ++ (ways n.otherwise).map (.otherwise :: ·)) ++
      (ways ns).map (.next :: ·) := by
  cases n
  rw [ways, waysBelow]
  rfl

theorem mem_ways_iff : w ∈ ways ns ↔ ∃ n, (ahead ns w).head? = some n := by
  induction w generalizing ns with
  | nil =>
    cases ns with
    | nil => simp [ways]
    | cons n ns => simp [ways_cons]
  | cons move w ih =>
    cases ns with
    | nil => simp [ways]
    | cons n ns => cases move <;> simp [ways_cons, ahead, ih]

mutual

theorem map_address_waysBelow (base : Nat) (ns : List Node) : (n : Node) →
    (waysBelow n).map (address base (n :: ns)) = List.range' base n.size
  | mk s cs os => by
    have hcs := map_address_ways (base + 1) cs
    have hos := map_address_ways (base + 1 + slotCount cs) os
    rw [waysBelow, List.map_cons, List.map_append, List.map_map, List.map_map]
    -- below the node, the count goes on from where each of its lists begins
    change base :: ((ways cs).map (address (base + 1) cs) ++
      (ways os).map (address (base + 1 + slotCount cs) os)) = _
    rw [hcs, hos, List.range'_append_1, ← List.range'_succ, size]
    congr 1
    omega

/-- The numbers at the ends of the ways are counted through without a gap. -/
theorem map_address_ways (base : Nat) : (ns : List Node) →
    (ways ns).map (address base ns) = List.range' base (slotCount ns)
  | [] => rfl
  | n :: ns => by
    have hns := map_address_ways (base + n.size) ns
    rw [ways, List.map_append, map_address_waysBelow base ns n, List.map_map]
    change _ ++ (ways ns).map (address (base + n.size) ns) = _
    rw [hns, List.range'_append_1, slotCount]

end

mutual

theorem map_slot_waysBelow (ns : List Node) : (n : Node) →
    (waysBelow n).map (fun w => (ahead (n :: ns) w).head?.map slot) = n.preorder.map some
  | mk s cs os => by
    rw [waysBelow, preorder, List.map_cons, List.map_cons, List.map_append, List.map_append,
      List.map_map, List.map_map, ← map_slot_ways cs, ← map_slot_ways os]
    rfl

theorem map_slot_ways : (ns : List Node) →
    (ways ns).map (fun w => (ahead ns w).head?.map slot) = (slots ns).map some
  | [] => rfl
  | n :: ns => by
    rw [ways, slots, List.map_append, List.map_append, map_slot_waysBelow ns n, List.map_map,
      ← map_slot_ways ns]
    rfl

end

theorem address_of_getElem?_ways {k : Nat} (h : (ways ns)[k]? = some w) :
    address base ns w = base + k := by
  have hmap := congrArg (·[k]?) (map_address_ways base ns)
  obtain ⟨hk, -⟩ := List.getElem?_eq_some_iff.mp h
  have hlen := congrArg List.length (map_address_ways base ns)
  rw [List.length_map, List.length_range'] at hlen
  simpa [h, List.getElem?_range' (hlen ▸ hk)] using hmap

/-- What leads to the number `i` is the way in the place `i`. -/
theorem getElem?_ways_iff : (ways ns)[i]? = some w ↔ ∃ n, Leads 0 ns w n i := by
  constructor
  · intro h
    obtain ⟨n, hn⟩ := mem_ways_iff.mp (List.mem_of_getElem? h)
    exact ⟨n, hn, (address_of_getElem?_ways h).trans (Nat.zero_add i)⟩
  · rintro ⟨n, hn, rfl⟩
    obtain ⟨k, hk⟩ := List.getElem?_of_mem (mem_ways_iff.mpr ⟨n, hn⟩)
    rw [address_of_getElem?_ways hk, Nat.zero_add, hk]

theorem exists_leads_iff :
    (∃ w n, Leads base ns w n i) ↔ base ≤ i ∧ i < base + slotCount ns := by
  rw [← List.mem_range'_1, ← map_address_ways, List.mem_map]
  constructor
  · rintro ⟨w, n, hn, hi⟩
    exact ⟨w, mem_ways_iff.mpr ⟨n, hn⟩, hi⟩
  · rintro ⟨w, hw, hi⟩
    obtain ⟨n, hn⟩ := mem_ways_iff.mp hw
    exact ⟨w, n, hn, hi⟩

theorem Leads.getElem?_slots (h : Leads 0 ns w n i) : (slots ns)[i]? = some n.slot := by
  have hway : (ways ns)[i]? = some w := getElem?_ways_iff.mpr ⟨n, h⟩
  have hmap := congrArg (·[i]?) (map_slot_ways ns)
  simpa [hway, h.1] using hmap.symm

/-- The top-level nodes are where the ways lead that never go below a node. -/
theorem mem_placed_iff :
    (n, i) ∈ placed base ns ↔ ∃ k, Leads base ns (List.replicate k .next) n i := by
  induction ns generalizing base with
  | nil => simp [placed, Leads]
  | cons m ns ih =>
    rw [placed, List.mem_cons, ih]
    constructor
    · rintro (hhead | ⟨k, hk⟩)
      · obtain ⟨rfl, rfl⟩ := Prod.mk.inj hhead
        exact ⟨0, rfl, rfl⟩
      · exact ⟨k + 1, hk⟩
    · rintro ⟨k, hk⟩
      cases k with
      | zero =>
        obtain ⟨hn, rfl⟩ := hk
        exact .inl (by simpa using hn.symm)
      | succ k => exact .inr ⟨k, hk⟩

/-- What stands behind a tree does not matter to the ways into it. -/
theorem Leads.of_singleton (h : Leads base [m] w n i) (rest : List Node) :
    Leads base (m :: rest) w n i := by
  cases w with
  | nil => exact h
  | cons move w =>
    cases move with
    | next => simp [Leads, ahead] at h
    | children => exact h
    | otherwise => exact h

namespace Call

variable {l : Line} {c d root : Call}

theorem Begins.exists_move (h : c.Begins l d) :
    ∃ move, d.nodes = ahead c.nodes [move] ∧ d.slot = address c.slot c.nodes [move] := by
  cases h with
  | children => exact ⟨.children, by simp [ahead, Node.children], by simp [address]⟩
  | otherwise =>
    exact ⟨.otherwise, by simp [ahead, Node.otherwise], by simp [address, Node.children]⟩
  | rest => exact ⟨.next, by simp [ahead], by simp [address]⟩

theorem Comes.exists_way (h : root.Comes l c) :
    ∃ w, c.nodes = ahead root.nodes w ∧ c.slot = address root.slot root.nodes w := by
  induction h with
  | refl => exact ⟨[], by simp, by simp⟩
  | tail _ hb ih =>
    obtain ⟨w, hnodes, hslot⟩ := ih
    obtain ⟨move, hnodes', hslot'⟩ := hb.exists_move
    refine ⟨w ++ [move], ?_, ?_⟩
    · rw [hnodes', hnodes, ahead_append]
    · rw [hslot', hslot, hnodes, address_append]

theorem Comes.exists_leads (h : root.Comes l c) {rest : List Node} (hn : c.nodes = n :: rest) :
    ∃ w, Leads root.slot root.nodes w n c.slot := by
  obtain ⟨w, hnodes, hslot⟩ := h.exists_way
  exact ⟨w, by rw [← hnodes, hn, List.head?_cons], hslot.symm⟩

end Call

end Node

open Node

theorem Schema.Visits.exists_leads {s : Schema} {tokens : List Token} {name : Option Token}
    {c : Call} {n : Node} {rest : List Node} (h : s.Visits tokens name c)
    (hn : c.nodes = n :: rest) : ∃ w, Leads 0 s.arguments w n c.slot := by
  obtain ⟨root, henters, hcomes⟩ := h.entered
  obtain ⟨w, hw⟩ := hcomes.exists_leads hn
  cases henters with
  | ordered => exact ⟨w, hw⟩
  | flag _ _ _ hnext =>
    -- the flag is walked alone, but stands in the grammar with others behind it
    obtain ⟨k, hk⟩ := mem_placed_iff.mp (Flags.fits_of_next? hnext).1
    obtain ⟨others, hothers⟩ := hk.exists_ahead
    refine ⟨List.replicate k .next ++ w, leads_append_iff.mpr ?_⟩
    rw [hothers, hk.2]
    exact hw.of_singleton others

namespace Node

/-- The number of a slot is the place of its node in pre-order. Every number below the count of
slots belongs to one node, the numbers below a node are those right behind its own, first all of its
children and then all of its alternative, and these are the numbers with which a match walks its
nodes. -/
theorem numbers_are_places (ns : List Node) :
    (ways ns).map (fun w => (ahead ns w).head?.map slot) = (slots ns).map some ∧
      (∀ w n i, Leads 0 ns w n i → (ways ns)[i]? = some w ∧ (slots ns)[i]? = some n.slot) ∧
      (∀ v w m n i, Leads 0 ns v m i → Leads 0 ns w n i → v = w) ∧
      (∀ i, (∃ w n, Leads 0 ns w n i) ↔ i < slotCount ns) ∧
      (∀ w n i, Leads 0 ns w n i →
        (∀ j, (∃ v m, Leads 0 ns (w ++ .children :: v) m j) ↔
          i + 1 ≤ j ∧ j < i + 1 + slotCount n.children) ∧
        ∀ j, (∃ v m, Leads 0 ns (w ++ .otherwise :: v) m j) ↔
          i + 1 + slotCount n.children ≤ j ∧ j < i + n.size) ∧
      (∀ n i, (n, i) ∈ placed 0 ns ↔ ∃ k, Leads 0 ns (List.replicate k .next) n i) ∧
      ∀ s tokens name c n rest, s.arguments = ns → Schema.Visits s tokens name c →
        c.nodes = n :: rest → ∃ w, Leads 0 ns w n c.slot := by
  refine ⟨map_slot_ways ns, fun w n i h => ⟨getElem?_ways_iff.mpr ⟨n, h⟩, h.getElem?_slots⟩, ?_, ?_,
    fun w n i h => ⟨fun j => ?_, fun j => ?_⟩, fun n i => mem_placed_iff, ?_⟩
  · intro v w m n i hv hw
    have hplace : (ways ns)[i]? = some v := getElem?_ways_iff.mpr ⟨m, hv⟩
    exact Option.some.inj (hplace.symm.trans (getElem?_ways_iff.mpr ⟨n, hw⟩))
  · intro i
    rw [exists_leads_iff]
    omega
  · simp only [h.children_iff, exists_leads_iff]
  · simp only [h.otherwise_iff, exists_leads_iff]
    rw [size_eq]
    omega
  · rintro s tokens name c n rest rfl hc hn
    exact hc.exists_leads hn

/-- Where an aim is given by its place, its third number has the slot behind those of the entity;
where the entity is given by its index, this has the slot behind that of its name. -/
theorem numbers_are_places_autoaim :
    let ns := Catalogue.autoaim.arguments
    let tokens : List Token := [⟨.string, "ent", ⟨0, 8, 11⟩⟩, ⟨.number, "3", ⟨0, 12, 13⟩⟩]
    ∃ z index p, Leads 0 ns [.otherwise, .next, .next] z 5 ∧ z.slot.key = some "z" ∧
      (slots ns)[5]? = some z.slot ∧
      Catalogue.autoaim.Visits tokens none ⟨2, p, [index]⟩ ∧ index.slot.key = some "entity_index" ∧
      ∃ w, Leads 0 ns w index 2 ∧ (slots ns)[2]? = some index.slot := by
  intro ns tokens
  let root : Call := ⟨0, .start 8, ns⟩
  obtain ⟨-, hplace, -, -, -, -, hvisit⟩ := numbers_are_places ns
  have hz : Leads 0 ns [.otherwise, .next, .next] (.leaf (Slot.number "z").needed) 5 := ⟨rfl, rfl⟩
  have hc : Catalogue.autoaim.Visits tokens none ⟨2, ⟨1, _⟩, [_]⟩ :=
    ⟨by simp [tokens], fun _ => by decide +kernel, root, .ordered rfl,
      .tail (.tail .refl (.children rfl)) (.otherwise rfl rfl (by simp))⟩
  obtain ⟨w, hw⟩ := hvisit _ tokens none _ _ _ rfl hc rfl
  exact ⟨_, _, _, hz, rfl, (hplace _ _ _ hz).2, hc, rfl, w, hw, (hplace _ _ _ hw).2⟩

end Node

end TasScript
