import TasScript.Text.Sorted
import TasScript.Datum.Checked
import TasScript.Grammar.Schema

/-! Reading nodes and schemas from untyped records. Inner nodes are checked before the node that
holds them, and fields a grammar does not know are passed over. -/

namespace TasScript

def tokenKinds : List (String × TokenKind) := [("string", .string), ("number", .number)]

namespace Datum

/-- The texts of a set, from item `index` on. -/
def texts (field : String) (index : Nat) : List Datum → Checked (List String)
  | [] => pure []
  | d :: ds =>
    List.cons <$> .atPath [.field field, .item index] d.toText <*> texts field (index + 1) ds

/-- A set of names that may be absent. -/
def nameSetOrAbsent (fields : List (String × Datum)) (name : String) :
    Checked (Option (List String)) :=
  match fields.lookup name with
  | none => pure none
  | some .null => pure none
  | some (.list items) => (fun names => some (nameSet names)) <$> texts name 0 items
  | some _ => .ofFaults [⟨[.field name], .notSet⟩]

end Datum

namespace Node

open Datum in
/-- A node from its own fields and the readings of its two lists. -/
def ofFields (fields : List (String × Datum)) (children otherwise : Checked (List Node)) :
    Checked Node :=
  let build := fun kind isRequired text unit description cs os key choices isInteger minimum maximum
      group =>
    Node.mk ⟨kind, isRequired, text, unit, description, key, choices, isInteger, minimum, maximum,
      group⟩ cs os
  let read := build <$> required fields "kind" (toListed tokenKinds)
    <*> optional fields "required" false toBoolean
    <*> optional fields "text" none (orAbsent toText)
    <*> optional fields "unit" none (orAbsent toText)
    <*> optional fields "description" none (orAbsent toText)
    <*> children
    <*> otherwise
    <*> optional fields "key" none (orAbsent toText)
    <*> nameSetOrAbsent fields "choices"
    <*> optional fields "integer" false toBoolean
    <*> optional fields "minimum" none (orAbsent toReal)
    <*> optional fields "maximum" none (orAbsent toReal)
    <*> optional fields "group" none (orAbsent toText)
  Checked.andCheck read fun n => n.slot.shapeCause?

mutual

def read : Datum → Checked Node
  | .record fields =>
    ofFields fields (readField "children" fields) (readField "otherwise_children" fields)
  | _ => .ofFaults [.ofCause .notANode]

/-- The list of nodes in a field, empty where the field is absent. -/
def readField (name : String) : List (String × Datum) → Checked (List Node)
  | [] => pure []
  | (key, .list items) :: fields =>
    if key = name then readItems name 0 items else readField name fields
  | (key, _) :: fields =>
    if key = name then .ofFaults [⟨[.field name], .notSequence⟩] else readField name fields

def readItems (name : String) (index : Nat) : List Datum → Checked (List Node)
  | [] => pure []
  | d :: ds =>
    List.cons <$> Checked.under [.field name, .item index] (read d)
      <*> readItems name (index + 1) ds

end

end Node

namespace Draft

/-- A name of at least one character. -/
def toName (d : Datum) : Except Cause String :=
  match d.toText with
  | .ok s => if s.isEmpty then .error .emptyText else .ok s
  | .error c => .error c

open Datum in
/-- A schema from its fields; the rule on its duration is checked last. -/
def read (fields : List (String × Datum)) : Checked Draft :=
  let build := fun name fixedOrder hasOff registers (duration : Int) arguments expects arbitrary
      (priority : Nat) description stopsAll =>
    Draft.mk name fixedOrder hasOff registers duration arguments expects arbitrary priority
      description stopsAll
  let draft := build <$> required fields "name" toName
    <*> required fields "fixed_order" toBoolean
    <*> required fields "has_off" toBoolean
    <*> required fields "registers_active_state" toBoolean
    <*> optional fields "duration_index" (-1) toInteger
    <*> Node.readField "arguments" fields
    <*> required fields "expects_arguments" toBoolean
    <*> optional fields "allow_arbitrary_arguments" false toBoolean
    <*> required fields "priority_index" toNatural
    <*> optional fields "description" "" toText
    <*> optional fields "stops_all_tools" false toBoolean
  draft.andCheck durationCause?

end Draft

/-- A checked schema from an untyped record. -/
def Schema.read (fields : List (String × Datum)) : Checked Schema :=
  Draft.schema <$> Draft.read fields

end TasScript
