import TasScript.Catalogue.Basic
import TasScript.Defect

/-! Registries of tools. Names and places in the order of execution are unique, and the tools are
kept in that order. -/

namespace TasScript

structure Registry where
  schemas : List Schema

namespace Registry

/-- The clash of one schema with those before it; a name counts before a priority. -/
def clash? (earlier : List Schema) (s : Schema) : Option Defect :=
  if earlier.any fun e => e.name == s.name then some (.duplicateTool s.name)
  else
    match earlier.find? fun e => e.priority == s.priority with
    | some e => some (.sharedPriority e.name s.name s.priority)
    | none => none

/-- The first clash of a list that follows `earlier`. -/
def firstClash? (earlier : List Schema) : List Schema → Option Defect
  | [] => none
  | s :: rest =>
    match clash? earlier s with
    | some d => some d
    | none => firstClash? (earlier ++ [s]) rest

def byPriority (schemas : List Schema) : List Schema :=
  schemas.mergeSort fun a b => decide (a.priority ≤ b.priority)

def ofList (schemas : List Schema) : Except Defect Registry :=
  match firstClash? [] schemas with
  | some d => .error d
  | none => .ok ⟨byPriority schemas⟩

def lookup? (r : Registry) (name : String) : Option Schema :=
  r.schemas.find? fun s => s.name == name

def contains (r : Registry) (name : String) : Bool := (r.lookup? name).isSome

def names (r : Registry) : List String := r.schemas.map (·.name)

def size (r : Registry) : Nat := r.schemas.length

/-- The catalogue is free of clashes and written in order. -/
def builtIn : Registry := ⟨catalogue⟩

theorem firstClash?_catalogue : firstClash? [] catalogue = none := by decide

theorem byPriority_catalogue : byPriority catalogue = catalogue :=
  List.mergeSort_of_pairwise (by decide)

theorem ofList_catalogue : ofList catalogue = .ok builtIn := by
  simp [ofList, firstClash?_catalogue, byPriority_catalogue, builtIn]

end Registry

end TasScript
