import TasScript.Data.List
import TasScript.Grammar.Form
import TasScript.Proofs.Judgement
import TasScript.Proofs.Walk

/-! Grammars in blocks: optional keywords in a fixed order, each with slots behind it that all have
to be bound. A line is walked to its end exactly where it can be cut into such blocks. -/

namespace TasScript

open Node

/-- The tokens are bound by the slots one by one. -/
inductive BindAll : List Slot → List Token → List Value → Prop
  | nil : BindAll [] [] []
  | cons {s : Slot} {t : Token} {v : Value} {ss : List Slot} {ts : List Token} {vs : List Value} :
      s.bind t = .ok v → BindAll ss ts vs → BindAll (s :: ss) (t :: ts) (v :: vs)

theorem Token.sameFolded_of_isKeyword {t : Token} {k k' : String} (h : t.isKeyword k = true)
    (h' : t.isKeyword k' = true) : sameFolded k k' = true := by
  unfold isKeyword sameFolded at *
  rw [beq_iff_eq] at *
  rw [← h, h']

structure Block where
  keyword : String
  parts : List Slot

namespace Block

def node (b : Block) : Node := Node.mk (Slot.keyword b.keyword) (b.parts.map Node.leaf) []

/-- A reading of a block: its values, or none where it is left out. -/
def Reads (b : Block) : Option (List Value) → List Token → Prop
  | none, ts => ts = []
  | some vs, ts => ∃ t us, ts = t :: us ∧ t.isKeyword b.keyword = true ∧ BindAll b.parts us vs

def cells (b : Block) : Option (List Value) → List (Option Value)
  | none => List.replicate (b.parts.length + 1) none
  | some vs => some (.word b.keyword) :: vs.map some

end Block

/-- A line cut into blocks, some of which are left out. -/
inductive ReadsBlocks : List Block → List (Option (List Value)) → List Token → Prop
  | nil : ReadsBlocks [] [] []
  | cons {b : Block} {r : Option (List Value)} {bs : List Block} {rs : List (Option (List Value))}
      {ts us : List Token} :
      b.Reads r ts → ReadsBlocks bs rs us → ReadsBlocks (b :: bs) (r :: rs) (ts ++ us)

def blockCells : List Block → List (Option (List Value)) → List (Option Value)
  | b :: bs, r :: rs => b.cells r ++ blockCells bs rs
  | _, _ => []

theorem slotCount_leaves (parts : List Slot) : slotCount (parts.map leaf) = parts.length := by
  induction parts with
  | nil => rfl
  | cons s parts ih =>
    simp only [List.map_cons, slotCount, ih, leaf, size, List.length_cons]
    omega

namespace Block

theorem size_node (b : Block) : b.node.size = b.parts.length + 1 := by
  simp only [node, size, slotCount, slotCount_leaves]
  omega

end Block

namespace Progress

/-- At `pos`, with the cells of the slots so far and `free` empty ones behind them. -/
def filled (pos : Nat) (cells : List (Option Value)) (free : Nat) : Progress :=
  ⟨pos, cells ++ List.replicate free none⟩

theorem bind_filled (pos : Nat) (cells : List (Option Value)) (free : Nat) (v : Value) :
    (filled pos cells (free + 1)).bind cells.length v =
      filled (pos + 1) (cells ++ [some v]) free := by
  simp [filled, bind, List.replicate_succ]

end Progress

open Progress (filled)

namespace Line

variable {l : Line} {p q : Progress} {slot : Nat}

theorem bindHead_eq_ok_iff {s : Slot} : l.bindHead s slot p = .ok q ↔
    ∃ t v, l.tokens[p.pos]? = some t ∧ s.bind t = .ok v ∧ q = p.bind slot v := by
  constructor
  · exact bindHead_eq_ok
  · rintro ⟨t, v, ht, hv, rfl⟩
    simp [bindHead, ht, hv]

theorem isSoft_of_bindHead_keyword {k : String} {miss : Miss}
    (h : l.bindHead (Slot.keyword k) slot p = .error miss) : miss.mismatch.isSoft = true := by
  unfold bindHead at h
  split at h
  · obtain rfl := Except.error.inj h
    rw [missAt_mismatch]
    rfl
  · rename_i t ht
    by_cases hk : t.isKeyword k = true
    · simp [Slot.bind, Slot.keyword, hk] at h
    · simp only [Slot.bind, Slot.keyword, if_neg hk, Except.error.injEq] at h
      subst h
      rw [missAt_mismatch]
      rfl

end Line

namespace Node

variable {l : Line} {p q : Progress} {slot : Nat}

theorem walk_leaf {s : Slot} (hs : s.required = true) :
    (leaf s).walk l slot p = .done q ↔
      ∃ t v, l.tokens[p.pos]? = some t ∧ s.bind t = .ok v ∧ q = p.bind slot v := by
  rw [← Line.bindHead_eq_ok_iff, leaf, walk]
  cases h : l.bindHead s slot p with
  | ok r => simp [walkAll]
  | error miss =>
    simp only [List.isEmpty_nil, if_true, hs]
    split <;> simp

theorem walkAll_cons {n : Node} {ns : List Node} : walkAll l slot p (n :: ns) = .done q ↔
    ∃ r, n.walk l slot p = .done r ∧ walkAll l (slot + n.size) r ns = .done q := by
  rw [walkAll]
  cases n.walk l slot p with
  | done r => simp
  | failed miss r => simp

theorem walkAll_leaves {parts : List Slot} (hs : ∀ s ∈ parts, s.required = true) {pos free : Nat}
    {cells : List (Option Value)} :
    walkAll l cells.length (filled pos cells (parts.length + free)) (parts.map leaf) = .done q ↔
      ∃ ts vs, BindAll parts ts vs ∧ ts <+: l.tokens.drop pos ∧
        q = filled (pos + ts.length) (cells ++ vs.map some) free := by
  induction parts generalizing pos cells with
  | nil =>
    simp only [List.map_nil, walkAll, Walked.done.injEq]
    constructor
    · rintro rfl
      exact ⟨[], [], .nil, List.nil_prefix, by simp⟩
    · rintro ⟨ts, vs, hb, -, rfl⟩
      cases hb
      simp
  | cons s parts ih =>
    have hrest := fun pos cells => @ih (fun r hr => hs r (by simp [hr])) pos cells
    have hsize : (s :: parts).length + free = parts.length + free + 1 := by
      simp only [List.length_cons]
      omega
    rw [List.map_cons, walkAll_cons, hsize]
    constructor
    · rintro ⟨r, hr, hq⟩
      obtain ⟨t, v, ht, hv, rfl⟩ := (walk_leaf (hs s (by simp))).mp hr
      rw [Progress.bind_filled] at hq
      have hslot : cells.length + (leaf s).size = (cells ++ [some v]).length := by
        simp [leaf, size, slotCount]
      rw [hslot, hrest] at hq
      obtain ⟨ts, vs, hb, hts, rfl⟩ := hq
      refine ⟨t :: ts, v :: vs, .cons hv hb, List.cons_prefix_drop.mpr ⟨ht, hts⟩, ?_⟩
      simp [Nat.add_assoc, Nat.add_comm 1]
    · rintro ⟨ts, vs, hb, hts, rfl⟩
      cases hb with
      | @cons _ t v _ ts vs hv hb =>
        obtain ⟨ht, hts⟩ := List.cons_prefix_drop.mp hts
        refine ⟨_, (walk_leaf (hs s (by simp))).mpr ⟨t, v, ht, hv, rfl⟩, ?_⟩
        have hslot : cells.length + (leaf s).size = (cells ++ [some v]).length := by
          simp [leaf, size, slotCount]
        rw [Progress.bind_filled, hslot, hrest]
        exact ⟨ts, vs, hb, hts, by simp [Nat.add_assoc, Nat.add_comm 1]⟩

/-- A block whose keyword does not come next is left out. -/
theorem walk_block_absent {b : Block}
    (h : ∀ t, l.tokens[p.pos]? = some t → t.isKeyword b.keyword = false) :
    b.node.walk l slot p = .done p := by
  rw [Block.node, walk]
  cases hhead : l.bindHead (Slot.keyword b.keyword) slot p with
  | ok r =>
    obtain ⟨t, v, ht, hv, -⟩ := Line.bindHead_eq_ok hhead
    simp [Slot.bind, Slot.keyword, h t ht] at hv
  | error miss =>
    have hsoft : miss.mismatch.isSoft = true := Line.isSoft_of_bindHead_keyword hhead
    simp [hsoft, Slot.keyword]

theorem walk_block_present {b : Block} (hb : ∀ s ∈ b.parts, s.required = true) {pos free : Nat}
    {cells : List (Option Value)} {t : Token} (ht : l.tokens[pos]? = some t)
    (hk : t.isKeyword b.keyword = true) :
    b.node.walk l cells.length (filled pos cells (b.node.size + free)) = .done q ↔
      ∃ us vs, BindAll b.parts us vs ∧ us <+: l.tokens.drop (pos + 1) ∧
        q = filled (pos + 1 + us.length) (cells ++ b.cells (some vs)) free := by
  have hhead : l.bindHead (Slot.keyword b.keyword) cells.length
      (filled pos cells (b.node.size + free)) =
        .ok (filled (pos + 1) (cells ++ [some (.word b.keyword)]) (b.parts.length + free)) := by
    have hsize : b.node.size + free = b.parts.length + free + 1 := by
      rw [Block.size_node]
      omega
    have hbind : (Slot.keyword b.keyword).bind t = .ok (.word b.keyword) := if_pos hk
    rw [Line.bindHead_eq_ok_iff]
    exact ⟨t, _, ht, hbind, by rw [hsize, Progress.bind_filled]⟩
  have hslot : cells.length + 1 = (cells ++ [some (Value.word b.keyword)]).length := by simp
  rw [Block.node, walk, ← Block.node, hhead]
  dsimp only
  rw [hslot, walkAll_leaves hb]
  simp [Block.cells]

end Node

namespace BindAll

theorem length_eq {parts : List Slot} {ts : List Token} {vs : List Value}
    (h : BindAll parts ts vs) : vs.length = parts.length := by
  induction h with
  | nil => rfl
  | cons _ _ ih => simp [ih]

end BindAll

namespace Block

theorem Reads.length_cells {b : Block} {r : Option (List Value)} {ts : List Token}
    (h : b.Reads r ts) : (b.cells r).length = b.node.size := by
  rw [size_node]
  cases r with
  | none => simp [cells]
  | some vs =>
    obtain ⟨t, us, -, -, hb⟩ := h
    simp [cells, hb.length_eq]

end Block

namespace ReadsBlocks

variable {bs : List Block} {rs : List (Option (List Value))} {ts : List Token}

/-- What is left of a line starts with the keyword of one of the blocks that are left. -/
theorem head_isKeyword {t : Token} (h : ReadsBlocks bs rs ts) (ht : ts.head? = some t) :
    ∃ b ∈ bs, t.isKeyword b.keyword = true := by
  induction h with
  | nil => simp at ht
  | @cons b r bs rs ts us hr _ ih =>
    cases r with
    | none =>
      obtain rfl : ts = [] := hr
      obtain ⟨b', hb', hk⟩ := ih ht
      exact ⟨b', List.mem_cons_of_mem _ hb', hk⟩
    | some vs =>
      obtain ⟨t', us', rfl, hk, -⟩ := hr
      obtain rfl : t' = t := by simpa using ht
      exact ⟨b, List.mem_cons_self, hk⟩

end ReadsBlocks

namespace Node

variable {l : Line} {q : Progress} {bs : List Block} {pos free : Nat} {cells : List (Option Value)}

theorem walk_block {b : Block} (hb : ∀ s ∈ b.parts, s.required = true)
    (h : b.node.walk l cells.length (filled pos cells (b.node.size + free)) = .done q) :
    ∃ r ts, b.Reads r ts ∧ ts <+: l.tokens.drop pos ∧
      q = filled (pos + ts.length) (cells ++ b.cells r) free := by
  by_cases hk : ∃ t, l.tokens[pos]? = some t ∧ t.isKeyword b.keyword = true
  · obtain ⟨t, ht, hk⟩ := hk
    obtain ⟨us, vs, hbind, hus, rfl⟩ := (walk_block_present hb ht hk).mp h
    refine ⟨some vs, t :: us, ⟨t, us, rfl, hk, hbind⟩, List.cons_prefix_drop.mpr ⟨ht, hus⟩, ?_⟩
    rw [List.length_cons, Nat.add_right_comm, Nat.add_assoc]
  · have habsent : ∀ t, l.tokens[pos]? = some t → t.isKeyword b.keyword = false := by
      intro t ht
      cases hkey : t.isKeyword b.keyword with
      | false => rfl
      | true => exact absurd ⟨t, ht, hkey⟩ hk
    rw [walk_block_absent habsent] at h
    obtain rfl := Walked.done.inj h
    refine ⟨none, [], rfl, List.nil_prefix, ?_⟩
    rw [Block.size_node]
    simp [filled, Block.cells]

theorem reads_of_walkAll (hb : ∀ b ∈ bs, ∀ s ∈ b.parts, s.required = true)
    (h : walkAll l cells.length (filled pos cells (slotCount (bs.map Block.node) + free))
      (bs.map Block.node) = .done q) :
    ∃ rs ts, ReadsBlocks bs rs ts ∧ ts <+: l.tokens.drop pos ∧
      q = filled (pos + ts.length) (cells ++ blockCells bs rs) free := by
  induction bs generalizing pos cells with
  | nil =>
    obtain rfl := Walked.done.inj h
    exact ⟨[], [], .nil, List.nil_prefix, by simp [blockCells, slotCount]⟩
  | cons b bs ih =>
    obtain ⟨hparts, hrest⟩ := List.forall_mem_cons.mp hb
    rw [List.map_cons, walkAll_cons, slotCount, Nat.add_assoc] at h
    obtain ⟨p, hp, hq⟩ := h
    obtain ⟨r, ts, hr, hts, rfl⟩ := walk_block hparts hp
    rw [← hr.length_cells, ← List.length_append] at hq
    obtain ⟨rs, us, hrs, hus, rfl⟩ := ih hrest hq
    refine ⟨r :: rs, ts ++ us, .cons hr hrs, ?_, ?_⟩
    · obtain ⟨vs, hvs⟩ := hts
      rw [← List.drop_drop, ← hvs, List.drop_left] at hus
      rw [← hvs]
      exact List.prefix_append_right_inj ts |>.mpr hus
    · simp [blockCells, Nat.add_assoc]

/-- With no two keywords alike, there is one way to cut a line, and the walk takes it. -/
theorem walkAll_of_reads (hb : ∀ b ∈ bs, ∀ s ∈ b.parts, s.required = true)
    (hkeys : bs.Pairwise fun b c => sameFolded b.keyword c.keyword = false)
    {rs : List (Option (List Value))} (h : ReadsBlocks bs rs (l.tokens.drop pos)) :
    walkAll l cells.length (filled pos cells (slotCount (bs.map Block.node) + free))
        (bs.map Block.node) =
      .done (filled (pos + (l.tokens.drop pos).length) (cells ++ blockCells bs rs) free) := by
  generalize hts : l.tokens.drop pos = ts at h
  induction h generalizing pos cells with
  | nil => simp [walkAll, slotCount, blockCells]
  | @cons b r bs rs ts us hr hrs ih =>
    obtain ⟨hparts, hrest⟩ := List.forall_mem_cons.mp hb
    obtain ⟨hkey, hkeys⟩ := List.pairwise_cons.mp hkeys
    have hdrop : l.tokens.drop (pos + ts.length) = us := by
      rw [← List.drop_drop, hts, List.drop_left]
    have hblock : b.node.walk l cells.length
        (filled pos cells (b.node.size + (slotCount (bs.map Block.node) + free))) =
          .done (filled (pos + ts.length) (cells ++ b.cells r)
            (slotCount (bs.map Block.node) + free)) := by
      cases r with
      | some vs =>
        obtain ⟨t, us', rfl, hk, hbind⟩ := hr
        obtain ⟨ht, hpre⟩ := List.cons_prefix_drop.mp (hts ▸ List.prefix_append (t :: us') us)
        refine (walk_block_present hparts ht hk).mpr ⟨us', vs, hbind, hpre, ?_⟩
        rw [List.length_cons, Nat.add_right_comm, Nat.add_assoc]
      | none =>
        obtain rfl : ts = [] := hr
        rw [walk_block_absent]
        · simp [filled, Block.cells, Block.size_node]
        · intro t (ht : l.tokens[pos]? = some t)
          -- the next token is the keyword of a later block, and so not the one of this block
          have hhead : us.head? = some t := by
            rw [← hdrop]
            simpa [List.head?_drop] using ht
          obtain ⟨c, hc, hkc⟩ := hrs.head_isKeyword hhead
          rw [← Bool.not_eq_true]
          intro hkb
          exact absurd (Token.sameFolded_of_isKeyword hkb hkc) (by simp [hkey c hc])
    rw [List.map_cons, walkAll_cons, slotCount, Nat.add_assoc]
    refine ⟨_, hblock, ?_⟩
    rw [← hr.length_cells, ← List.length_append, ih hrest hkeys hdrop]
    simp [blockCells, Nat.add_assoc]

end Node

namespace ReadsBlocks

theorem nil_iff {rs : List (Option (List Value))} {ts : List Token} :
    ReadsBlocks [] rs ts ↔ rs = [] ∧ ts = [] := by
  constructor
  · intro h
    cases h
    exact ⟨rfl, rfl⟩
  · rintro ⟨rfl, rfl⟩
    exact .nil

theorem cons_iff {b : Block} {bs : List Block} {rs : List (Option (List Value))}
    {ts : List Token} :
    ReadsBlocks (b :: bs) rs ts ↔ ∃ r rest us vs, rs = r :: rest ∧ ts = us ++ vs ∧
      b.Reads r us ∧ ReadsBlocks bs rest vs := by
  constructor
  · intro h
    cases h with
    | cons hr hrest => exact ⟨_, _, _, _, rfl, rfl, hr, hrest⟩
  · rintro ⟨r, rest, us, vs, rfl, rfl, hr, hrest⟩
    exact .cons hr hrest

theorem absent (bs : List Block) : ReadsBlocks bs (bs.map fun _ => none) [] := by
  induction bs with
  | nil => exact .nil
  | cons b bs ih => exact @ReadsBlocks.cons b none bs _ [] [] rfl ih

theorem blockCells_of_nil {bs : List Block} {rs : List (Option (List Value))}
    (h : ReadsBlocks bs rs []) :
    blockCells bs rs = List.replicate (slotCount (bs.map Block.node)) none := by
  generalize hts : ([] : List Token) = ts at h
  induction h with
  | nil => rfl
  | @cons b r bs rs ts us hr _ ih =>
    obtain ⟨rfl, rfl⟩ := List.append_eq_nil_iff.mp hts.symm
    cases r with
    | none => simp [blockCells, Block.cells, ih rfl, slotCount, Block.size_node]
    | some vs =>
      obtain ⟨t, us, hnil, -⟩ := hr
      simp at hnil

end ReadsBlocks

namespace Schema

/-- A grammar of blocks and of nothing else. -/
structure InBlocks (s : Schema) (bs : List Block) : Prop where
  arguments : s.arguments = bs.map Block.node
  nonempty : bs ≠ []
  parts : ∀ b ∈ bs, ∀ slot ∈ b.parts, slot.required = true
  keywords : bs.Pairwise fun b c => sameFolded b.keyword c.keyword = false
  fixedOrder : s.fixedOrder = true
  hasOff : s.hasOff = false
  noExtra : s.allowArbitraryArguments = false

namespace InBlocks

variable {s : Schema} {bs : List Block} {l : Line}

theorem start_eq (h : s.InBlocks bs) :
    Progress.start s.slotCount = filled 0 [] (Node.slotCount (bs.map Block.node) + 0) := by
  rw [Schema.slotCount, h.arguments]
  rfl

theorem allOptional (h : s.InBlocks bs) : s.allOptional = true := by
  simp [Schema.allOptional, h.arguments, h.nonempty, Block.node, Node.slot, Slot.keyword]

theorem walk_iff (h : s.InBlocks bs) {values : List (Option Value)} {extra : List Token} :
    s.walk l = .ok (values, extra) ↔
      ∃ rs, ReadsBlocks bs rs l.tokens ∧ values = blockCells bs rs ∧ extra = [] := by
  rw [walk_of_ordered h.fixedOrder, walkOrdered, h.start_eq, h.arguments]
  constructor
  · intro hw
    split at hw
    · simp at hw
    · rename_i p hp
      obtain ⟨rs, ts, hrs, ⟨us, hus⟩, rfl⟩ := @reads_of_walkAll l p bs 0 0 [] h.parts hp
      have hrest : l.tokens.drop (0 + ts.length) = us := by
        rw [Nat.zero_add, ← List.drop_zero (l := l.tokens), ← hus, List.drop_left]
      rw [show (filled (0 + ts.length) ([] ++ blockCells bs rs) 0).pos = 0 + ts.length from rfl,
        hrest] at hw
      split at hw
      · obtain ⟨rfl, rfl⟩ := Prod.mk.inj (Except.ok.inj hw)
        refine ⟨rs, ?_, by simp [filled], rfl⟩
        rw [List.append_nil, List.drop_zero] at hus
        rwa [← hus]
      · simp [h.noExtra] at hw
  · rintro ⟨rs, hrs, rfl, rfl⟩
    have hp := @walkAll_of_reads l bs 0 0 [] h.parts h.keywords rs hrs
    rw [List.length_nil] at hp
    rw [hp]
    simp [filled]

theorem judge_iff (h : s.InBlocks bs) {v : Verdict} :
    s.judge l = .ok v ↔ ∃ rs, ReadsBlocks bs rs l.tokens ∧ v = .bound (blockCells bs rs) [] := by
  have hempty : ∀ rs, ReadsBlocks bs rs [] →
      blockCells bs rs = List.replicate s.slotCount none := by
    intro rs hrs
    rw [hrs.blockCells_of_nil, Schema.slotCount, h.arguments]
  constructor
  · intro hj
    rcases judge_cases hj with ⟨hnil, -, rfl⟩ | ⟨-, hoff, -⟩ | ⟨-, -, values, extra, hw, rfl⟩
    · have hrs := ReadsBlocks.absent bs
      exact ⟨_, hnil ▸ hrs, by rw [hempty _ hrs]⟩
    · simp [h.hasOff] at hoff
    · obtain ⟨rs, hrs, rfl, rfl⟩ := h.walk_iff.mp hw
      exact ⟨rs, hrs, rfl⟩
  · rintro ⟨rs, hrs, rfl⟩
    unfold judge
    cases hl : l.tokens with
    | nil =>
      rw [hl] at hrs
      simp [h.allOptional, hempty rs hrs]
    | cons t ts =>
      have hw := h.walk_iff.mpr ⟨rs, hrs, rfl, rfl⟩
      simp [h.hasOff, hw]

end InBlocks

end Schema

end TasScript
