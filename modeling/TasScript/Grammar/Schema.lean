import TasScript.Grammar.Node

/-! The grammar of one tool with what its execution needs to know, and the draft of one that a host
hands in to be checked. -/

namespace TasScript

structure Schema where
  name : String
  fixedOrder : Bool
  hasOff : Bool
  registersActiveState : Bool
  /-- The slot of the duration; without one a tool runs until it is turned off or replaced. -/
  durationSlot : Option Nat := none
  arguments : List Node := []
  expectsArguments : Bool
  allowArbitraryArguments : Bool := false
  /-- The place in the order of execution, lowest first. -/
  priority : Nat
  description : String := ""
  stopsAllTools : Bool := false

namespace Schema

def slots (s : Schema) : List Slot := Node.slots s.arguments

def slotCount (s : Schema) : Nat := Node.slotCount s.arguments

/-- The first slot bound under a key. -/
def keyIndex? (s : Schema) (key : String) : Option Nat :=
  s.slots.findIdx? fun slot => slot.key == some key

end Schema

/-- A schema before it is checked: its two indexes may be any integers, and -1 stands for no
duration. -/
structure Draft where
  name : String
  fixedOrder : Bool
  hasOff : Bool
  registersActiveState : Bool
  durationIndex : Int := -1
  arguments : List Node := []
  expectsArguments : Bool
  allowArbitraryArguments : Bool := false
  priorityIndex : Int
  description : String := ""
  stopsAllTools : Bool := false

namespace Draft

/-- The duration must be bound by a number in one of the slots. -/
def durationCause? (d : Draft) : Option Cause :=
  if d.durationIndex = -1 then none
  else
    let slots := Node.slots d.arguments
    if d.durationIndex < 0 then some (.durationOutside d.name d.durationIndex slots.length)
    else
      match slots[d.durationIndex.toNat]? with
      | none => some (.durationOutside d.name d.durationIndex slots.length)
      | some slot =>
        if slot.kind = .number then none else some (.durationNotNumeric d.name d.durationIndex)

/-- The faults of single fields, in the order in which the fields are written. -/
def fieldFaults (d : Draft) : List Fault :=
  (if d.name.isEmpty then [⟨[.field "name"], .emptyText⟩] else []) ++
    Node.faultsIn "arguments" 0 d.arguments ++
    (if d.priorityIndex < 0 then [⟨[.field "priority_index"], .belowZero⟩] else [])

def faults (d : Draft) : List Fault :=
  if d.fieldFaults.isEmpty then d.durationCause?.toList.map Fault.ofCause else d.fieldFaults

def schema (d : Draft) : Schema where
  name := d.name
  fixedOrder := d.fixedOrder
  hasOff := d.hasOff
  registersActiveState := d.registersActiveState
  durationSlot := if d.durationIndex < 0 then none else some d.durationIndex.toNat
  arguments := d.arguments
  expectsArguments := d.expectsArguments
  allowArbitraryArguments := d.allowArbitraryArguments
  priority := d.priorityIndex.toNat
  description := d.description
  stopsAllTools := d.stopsAllTools

def check (d : Draft) : Except (List Fault) Schema :=
  if d.faults.isEmpty then .ok d.schema else .error d.faults

end Draft

namespace Schema

/-- The draft from which a schema would be read. -/
def draft (s : Schema) : Draft where
  name := s.name
  fixedOrder := s.fixedOrder
  hasOff := s.hasOff
  registersActiveState := s.registersActiveState
  durationIndex :=
    match s.durationSlot with
    | none => -1
    | some slot => slot
  arguments := s.arguments
  expectsArguments := s.expectsArguments
  allowArbitraryArguments := s.allowArbitraryArguments
  priorityIndex := s.priority
  description := s.description
  stopsAllTools := s.stopsAllTools

/-- A schema whose draft is free of faults. -/
def Accepted (s : Schema) : Prop := s.draft.faults = []

instance (s : Schema) : Decidable s.Accepted :=
  inferInstanceAs (Decidable (s.draft.faults = []))

end Schema

namespace Draft

theorem fieldFaults_of_faults {d : Draft} (h : d.faults = []) : d.fieldFaults = [] := by
  unfold faults at h
  split at h
  · simp_all
  · exact h

theorem durationCause?_of_faults {d : Draft} (h : d.faults = []) : d.durationCause? = none := by
  simpa [faults, fieldFaults_of_faults h] using h

end Draft

end TasScript
