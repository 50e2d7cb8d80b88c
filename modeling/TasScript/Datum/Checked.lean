import TasScript.Datum.Basic

/-! Reading records field by field. The faults of all fields are gathered in the order in which the
fields are read. -/

namespace TasScript

/-- A value, or the faults for which there is none. -/
def Checked (α : Type) : Type := Except (List Fault) α

variable {α β : Type}

namespace Checked

def ofValue (a : α) : Checked α := .ok a

def ofFaults (fs : List Fault) : Checked α := .error fs

/-- Faults on both sides are kept. -/
def both (f : Checked (α → β)) (x : Checked α) : Checked β :=
  match f, x with
  | .ok f, .ok a => .ok (f a)
  | .ok _, .error fs => .error fs
  | .error fs, .ok _ => .error fs
  | .error fs, .error gs => .error (fs ++ gs)

instance : Applicative Checked where
  pure := ofValue
  seq f x := both f (x ())

/-- A last check of a value all of whose parts are sound. -/
def andCheck (x : Checked α) (cause? : α → Option Cause) : Checked α :=
  match x with
  | .ok a =>
    match cause? a with
    | none => .ok a
    | some c => .error [.ofCause c]
  | .error fs => .error fs

/-- The same reading seen from further out. -/
def under (steps : List Step) (x : Checked α) : Checked α :=
  match x with
  | .ok a => .ok a
  | .error fs => .error (fs.map (Fault.under steps))

/-- A single value at a path. -/
def atPath (steps : List Step) (x : Except Cause α) : Checked α :=
  match x with
  | .ok a => .ok a
  | .error c => .error [⟨steps, c⟩]

end Checked

namespace Datum

def required (fields : List (String × Datum)) (name : String) (read : Datum → Except Cause α) :
    Checked α :=
  match fields.lookup name with
  | some d => .atPath [.field name] (read d)
  | none => .ofFaults [⟨[.field name], .missing⟩]

def optional (fields : List (String × Datum)) (name : String) (absent : α)
    (read : Datum → Except Cause α) : Checked α :=
  match fields.lookup name with
  | some d => .atPath [.field name] (read d)
  | none => .ofValue absent

end Datum

end TasScript
