import TasScript.Grammar.Reading
import TasScript.Proofs.WellFormed

/-! Records that describe a grammar, well-formed or not: each attribute has a value of its type, or
is left out where it has a default. Such a record is read as the grammar it describes where that is
well-formed, and otherwise as the faults of that grammar. -/

namespace TasScript

variable {α β : Type}

namespace Checked

/-- The value, unless there are faults. -/
def orFaults (a : α) (fs : List Fault) : Checked α := if fs.isEmpty then .ok a else .error fs

theorem map_orFaults (f : α → β) (a : α) (fs : List Fault) :
    f <$> orFaults a fs = orFaults (f a) fs := by
  cases fs <;> rfl

theorem seq_orFaults (f : α → β) (a : α) (fs gs : List Fault) :
    orFaults f fs <*> orFaults a gs = orFaults (f a) (fs ++ gs) := by
  cases gs with
  | nil => cases fs with
    | nil => rfl
    | cons e fs =>
      rw [List.append_nil]
      rfl
  | cons e gs => cases fs <;> rfl

theorem under_orFaults (steps : List Step) (a : α) (fs : List Fault) :
    (orFaults a fs).under steps = orFaults a (fs.map (Fault.under steps)) := by
  cases fs <;> rfl

theorem andCheck_orFaults (cause? : α → Option Cause) (a : α) (fs : List Fault) :
    (orFaults a fs).andCheck cause? =
      orFaults a (if fs.isEmpty then (cause? a).toList.map .ofCause else fs) := by
  cases fs with
  | cons f fs => rfl
  | nil =>
    change andCheck (.ok a) cause? = orFaults a ((cause? a).toList.map .ofCause)
    unfold andCheck
    dsimp only
    cases cause? a <;> rfl

end Checked

namespace Datum

/-- The field reads as `a`, or it is left out and that means `a`. -/
def Gives (fields : List (String × Datum)) (name : String) (read : Datum → Except Cause α)
    (absent : Option α) (a : α) : Prop :=
  match fields.lookup name with
  | some d => read d = .ok a
  | none => absent = some a

variable {fields : List (String × Datum)} {name : String} {read : Datum → Except Cause α} {a b : α}

theorem Gives.required (h : Gives fields name read none a) :
    Datum.required fields name read = .orFaults a [] := by
  unfold Gives at h
  unfold Datum.required
  cases hd : fields.lookup name with
  | none => simp [hd] at h
  | some d =>
    have hread : read d = .ok a := by simpa only [hd] using h
    dsimp only
    rw [hread]
    rfl

theorem Gives.optional (h : Gives fields name read (some b) a) :
    Datum.optional fields name b read = .orFaults a [] := by
  unfold Gives at h
  unfold Datum.optional
  cases hd : fields.lookup name with
  | none =>
    have hsame : b = a := by simpa only [hd, Option.some.injEq] using h
    rw [hsame]
    rfl
  | some d =>
    have hread : read d = .ok a := by simpa only [hd] using h
    dsimp only
    rw [hread]
    rfl

end Datum

open Datum (Gives toBoolean toText toReal toInteger toListed orAbsent nameSetOrAbsent)

/-- The record gives each attribute of the slot. -/
structure Slot.GivenBy (fields : List (String × Datum)) (s : Slot) : Prop where
  kind : Gives fields "kind" (toListed tokenKinds) none s.kind
  required : Gives fields "required" toBoolean (some false) s.required
  text : Gives fields "text" (orAbsent toText) (some none) s.text
  unit : Gives fields "unit" (orAbsent toText) (some none) s.unit
  description : Gives fields "description" (orAbsent toText) (some none) s.description
  key : Gives fields "key" (orAbsent toText) (some none) s.key
  choices : nameSetOrAbsent fields "choices" = .ok s.choices
  integer : Gives fields "integer" toBoolean (some false) s.integer
  minimum : Gives fields "minimum" (orAbsent toReal) (some none) s.minimum
  maximum : Gives fields "maximum" (orAbsent toReal) (some none) s.maximum
  group : Gives fields "group" (orAbsent toText) (some none) s.group

namespace Node

mutual

/-- The record gives the attributes of a node and of all nodes below it. -/
inductive GivenBy : Datum → Node → Prop
  | mk {fields : List (String × Datum)} {s : Slot} {cs os : List Node} :
      s.GivenBy fields → FieldGives fields "children" cs →
      FieldGives fields "otherwise_children" os → GivenBy (.record fields) (mk s cs os)

inductive FieldGives : List (String × Datum) → String → List Node → Prop
  | absent {fields : List (String × Datum)} {name : String} :
      fields.lookup name = none → FieldGives fields name []
  | listed {fields : List (String × Datum)} {name : String} {ds : List Datum} {ns : List Node} :
      fields.lookup name = some (.list ds) → ItemsGive ds ns → FieldGives fields name ns

inductive ItemsGive : List Datum → List Node → Prop
  | nil : ItemsGive [] []
  | cons {d : Datum} {n : Node} {ds : List Datum} {ns : List Node} :
      GivenBy d n → ItemsGive ds ns → ItemsGive (d :: ds) (n :: ns)

end

theorem ofFields_eq {fields : List (String × Datum)} {s : Slot} {cs os : List Node}
    {fs gs : List Fault} (h : s.GivenBy fields) :
    ofFields fields (.orFaults cs fs) (.orFaults os gs) = .orFaults (mk s cs os)
      (if (fs ++ gs).isEmpty then s.shapeCause?.toList.map Fault.ofCause else fs ++ gs) := by
  have hchoices : nameSetOrAbsent fields "choices" = .orFaults s.choices [] := h.choices
  simp only [ofFields, h.kind.required, h.required.optional, h.text.optional, h.unit.optional,
    h.description.optional, h.key.optional, hchoices, h.integer.optional, h.minimum.optional,
    h.maximum.optional, h.group.optional, Checked.map_orFaults, Checked.seq_orFaults,
    Checked.andCheck_orFaults, List.nil_append, List.append_nil]
  rfl

theorem readField_eq (name : String) (fields : List (String × Datum)) :
    readField name fields = match fields.lookup name with
      | none => .orFaults [] []
      | some (.list items) => readItems name 0 items
      | some _ => .ofFaults [⟨[.field name], .notSequence⟩] := by
  induction fields with
  | nil => rfl
  | cons field fields ih =>
    obtain ⟨key, d⟩ := field
    by_cases hkey : key = name
    · subst hkey
      cases d <;> simp [readField]
    · have hne : (name == key) = false := by simpa using Ne.symm hkey
      rw [List.lookup_cons, hne, ← ih]
      cases d <;> simp [readField, hkey]

theorem readField_of_gives {fields : List (String × Datum)} {name : String} {ns : List Node}
    (h : FieldGives fields name ns)
    (hitems : ∀ ds, ItemsGive ds ns → readItems name 0 ds = .orFaults ns (faultsIn name 0 ns)) :
    readField name fields = .orFaults ns (faultsIn name 0 ns) := by
  rw [readField_eq]
  cases h with
  | absent hnone =>
    rw [hnone]
    rfl
  | listed hlist hns =>
    rw [hlist]
    exact hitems _ hns

mutual

theorem read_of_givenBy : (n : Node) → {d : Datum} → GivenBy d n → read d = .orFaults n n.faults
  | mk s cs os, _, .mk hs hcs hos => by
    rw [read, readField_of_gives hcs fun _ h => readItems_of_give 0 cs h,
      readField_of_gives hos fun _ h => readItems_of_give 0 os h, ofFields_eq hs, faults]

theorem readItems_of_give {name : String} (index : Nat) : (ns : List Node) → {ds : List Datum} →
    ItemsGive ds ns → readItems name index ds = .orFaults ns (faultsIn name index ns)
  | [], _, .nil => rfl
  | n :: ns, _, .cons hn hns => by
    rw [readItems, faultsIn, read_of_givenBy n hn, readItems_of_give (index + 1) ns hns,
      Checked.under_orFaults, Checked.map_orFaults, Checked.seq_orFaults]

end

end Node

namespace Draft

/-- The record gives each attribute of the draft and of all its nodes. The name may be empty, and
the two indexes may be any integers. -/
structure GivenBy (fields : List (String × Datum)) (d : Draft) : Prop where
  name : Gives fields "name" toText none d.name
  fixedOrder : Gives fields "fixed_order" toBoolean none d.fixedOrder
  hasOff : Gives fields "has_off" toBoolean none d.hasOff
  registersActiveState : Gives fields "registers_active_state" toBoolean none d.registersActiveState
  durationIndex : Gives fields "duration_index" toInteger (some (-1)) d.durationIndex
  arguments : Node.FieldGives fields "arguments" d.arguments
  expectsArguments : Gives fields "expects_arguments" toBoolean none d.expectsArguments
  allowArbitraryArguments :
    Gives fields "allow_arbitrary_arguments" toBoolean (some false) d.allowArbitraryArguments
  priorityIndex : Gives fields "priority_index" toInteger none d.priorityIndex
  description : Gives fields "description" toText (some "") d.description
  stopsAllTools : Gives fields "stops_all_tools" toBoolean (some false) d.stopsAllTools

variable {fields : List (String × Datum)} {d : Draft}

theorem required_toName {s : String} (h : Gives fields "name" toText none s) :
    Datum.required fields "name" toName =
      .orFaults s (if s.isEmpty then [⟨[.field "name"], .emptyText⟩] else []) := by
  unfold Gives at h
  unfold Datum.required
  cases ha : fields.lookup "name" with
  | none => simp [ha] at h
  | some a =>
    have hread : toText a = .ok s := by simpa only [ha] using h
    dsimp only
    rw [toName, hread]
    cases hs : s.isEmpty <;> simp [hs] <;> rfl

theorem required_toNatural {n : Int} {field : String} (h : Gives fields field toInteger none n) :
    Datum.required fields field Datum.toNatural =
      .orFaults n.toNat (if n < 0 then [⟨[.field field], .belowZero⟩] else []) := by
  unfold Gives at h
  unfold Datum.required
  cases ha : fields.lookup field with
  | none => simp [ha] at h
  | some a =>
    have hread : toInteger a = .ok n := by simpa only [ha] using h
    dsimp only
    rw [Datum.toNatural, hread]
    by_cases hn : n < 0 <;> simp [hn] <;> rfl

/-- What is read is the draft, its index of priority aside where that is below zero. -/
theorem read_of_givenBy (h : d.GivenBy fields) :
    read fields = .orFaults { d with priorityIndex := d.priorityIndex.toNat } d.faults := by
  have harguments := Node.readField_of_gives h.arguments
    fun _ hns => Node.readItems_of_give 0 d.arguments hns
  simp only [read, required_toName h.name, h.fixedOrder.required, h.hasOff.required,
    h.registersActiveState.required, h.durationIndex.optional, harguments,
    h.expectsArguments.required, h.allowArbitraryArguments.optional,
    required_toNatural h.priorityIndex, h.description.optional, h.stopsAllTools.optional,
    Checked.map_orFaults, Checked.seq_orFaults, Checked.andCheck_orFaults, List.append_nil]
  rfl

end Draft

/-- A schema is read from a record exactly as its draft is checked. -/
theorem Schema.read_of_givenBy {fields : List (String × Datum)} {d : Draft}
    (h : d.GivenBy fields) : Schema.read fields = d.check := by
  rw [Schema.read, Draft.read_of_givenBy h, Checked.map_orFaults]
  have hschema : ({ d with priorityIndex := d.priorityIndex.toNat } : Draft).schema = d.schema :=
    rfl
  rw [hschema]
  rfl

namespace Draft

variable {d : Draft}

/-- A record whose attributes have values of their types is read as a schema exactly where it is
well-formed. Otherwise the nodes to blame are reported, each once and in the order in which they are
written, and the duration only where nothing else is. -/
theorem schema_read_iff {fields : List (String × Datum)} (h : d.GivenBy fields) :
    (Schema.read fields = .ok d.schema ↔ d.WellFormed) ∧
      (¬ d.WellFormed → ∃ fs, Schema.read fields = .error fs ∧ fs ≠ [] ∧
        ((fs.filter fun f => f.cause.isShape).map fun f => (f.path, some f.cause)) =
          Node.blame (Node.occurrencesIn [] "arguments" 0 d.arguments) ∧
        ∀ f ∈ fs, f.cause.isDuration = true → fs = [f]) := by
  rw [Schema.read_of_givenBy h, ← faults_eq_nil_iff, check]
  constructor
  · by_cases hnone : d.faults = []
    · exact iff_of_true (if_pos (by simp [hnone])) hnone
    · refine iff_of_false ?_ hnone
      rw [if_neg (by simpa using hnone)]
      simp
  · intro hsome
    refine ⟨d.faults, if_neg (by simpa using hsome), hsome, ?_, fun f => faults_of_isDuration⟩
    rw [shapes_of_faults]
    exact Node.seen_faultsIn [] "arguments" 0 d.arguments

/-- Of three faulty nodes the one below another is to blame, and the other is not; the missing name
does not hide them, but the duration goes unchecked. -/
theorem schema_read_iff_nested :
    let fields : List (String × Datum) :=
      [("name", .text ""), ("fixed_order", .boolean true), ("has_off", .boolean false),
        ("registers_active_state", .boolean false), ("duration_index", .integer 9),
        ("arguments", .list [
          .record [("kind", .text "string"), ("unit", .text "deg"),
            ("children", .list [.record [("kind", .text "number"), ("text", .text "on")]])],
          .record [("kind", .text "number"), ("minimum", .real 2), ("maximum", .real 1)]]),
        ("expects_arguments", .boolean true), ("priority_index", .integer 0)]
    let d : Draft :=
      { name := "", fixedOrder := true, hasOff := false, registersActiveState := false
        durationIndex := 9
        arguments := [
          .mk { kind := .string, unit := some "deg" }
            [.leaf { kind := .number, text := some "on" }] [],
          .leaf { kind := .number, minimum := some 2, maximum := some 1 }]
        expectsArguments := true, priorityIndex := 0 }
    d.GivenBy fields ∧ ¬ d.WellFormed ∧ ∃ fs, Schema.read fields = .error fs ∧
      ((fs.filter fun f => f.cause.isShape).map fun f => (f.path, some f.cause)) =
        [([.field "arguments", .item 0, .field "children", .item 0],
            some (.numericKeyword "on")),
          ([.field "arguments", .item 1], some (.emptyInterval 2 1))] ∧
      ∀ f ∈ fs, f.cause.isDuration = true → fs = [f] := by
  intro fields d
  have hchild : Node.GivenBy (.record [("kind", .text "number"), ("text", .text "on")])
      (.leaf { kind := .number, text := some "on" }) :=
    .mk ⟨rfl, rfl, rfl, rfl, rfl, rfl, rfl, rfl, rfl, rfl, rfl⟩ (.absent rfl) (.absent rfl)
  have hfirst : Node.GivenBy (.record [("kind", .text "string"), ("unit", .text "deg"),
        ("children", .list [.record [("kind", .text "number"), ("text", .text "on")]])])
      (.mk { kind := .string, unit := some "deg" }
        [.leaf { kind := .number, text := some "on" }] []) :=
    .mk ⟨rfl, rfl, rfl, rfl, rfl, rfl, rfl, rfl, rfl, rfl, rfl⟩
      (.listed rfl (.cons hchild .nil)) (.absent rfl)
  have hsecond : Node.GivenBy
      (.record [("kind", .text "number"), ("minimum", .real 2), ("maximum", .real 1)])
      (.leaf { kind := .number, minimum := some 2, maximum := some 1 }) :=
    .mk ⟨rfl, rfl, rfl, rfl, rfl, rfl, rfl, rfl, rfl, rfl, rfl⟩ (.absent rfl) (.absent rfl)
  have hgiven : d.GivenBy fields :=
    ⟨rfl, rfl, rfl, rfl, rfl, .listed rfl (.cons hfirst (.cons hsecond .nil)), rfl, rfl, rfl, rfl,
      rfl⟩
  have hill : ¬ d.WellFormed := fun h => h.name rfl
  obtain ⟨fs, hread, -, hshapes, hduration⟩ := (schema_read_iff hgiven).2 hill
  exact ⟨hgiven, hill, fs, hread, hshapes.trans (by decide +kernel), hduration⟩

end Draft

end TasScript
