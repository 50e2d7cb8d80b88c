import TasScript.Invocation.Walk

/-! Grammars whose top-level nodes are flags in any order, each used once and at most one of each
group. -/

namespace TasScript

structure Flags where
  progress : Progress
  used : List Nat := []
  /-- The groups that are taken, each with the label of the node that took it. -/
  groups : List (String × String) := []
  extra : List Token := []

namespace Flags

/-- The label of the node that already took the group of `s`. -/
def rival? (f : Flags) (s : Slot) : Option String :=
  match s.group with
  | some g => f.groups.lookup g
  | none => none

def take (f : Flags) (s : Slot) (slot : Nat) (p : Progress) : Flags :=
  { f with
    progress := p
    used := slot :: f.used
    groups :=
      match s.group with
      | some g => (g, s.label) :: f.groups
      | none => f.groups }

/-- Passes over a token that is no flag. -/
def pass (f : Flags) (t : Token) : Flags :=
  { f with
    progress := { f.progress with pos := f.progress.pos + 1 }
    extra := f.extra ++ [t] }

/-- One flag that starts with the token `t`. -/
def step (l : Line) (arbitrary : Bool) (candidates : List (Node × Nat)) (f : Flags) (t : Token) :
    Except Miss Flags :=
  match candidates.filter fun c => c.1.slot.fits t with
  | [] =>
    if arbitrary then .ok (f.pass t)
    else .error (l.missAt f.progress.pos (.unknown t.text l.tool))
  | (first, firstSlot) :: others =>
    match ((first, firstSlot) :: others).find? fun c => !f.used.contains c.2 with
    | none => .error (l.missAt f.progress.pos (.repeated first.slot.label))
    | some (node, slot) =>
      match f.rival? node.slot with
      | some other => .error (l.missAt f.progress.pos (.conflicting node.slot.label other))
      | none =>
        match node.walk l slot f.progress with
        | .done p => .ok (f.take node.slot slot p)
        | .failed miss _ => .error miss

/-- Every step reads at least one token, so as many steps as there are tokens are enough. -/
def gather (l : Line) (arbitrary : Bool) (candidates : List (Node × Nat)) :
    Nat → Flags → Except Miss Flags
  | 0, f => .ok f
  | steps + 1, f =>
    match l.tokens[f.progress.pos]? with
    | none => .ok f
    | some t =>
      match step l arbitrary candidates f t with
      | .ok g => gather l arbitrary candidates steps g
      | .error miss => .error miss

/-- The labels of the required nodes that no token named. -/
def missing (candidates : List (Node × Nat)) (f : Flags) : List String :=
  (candidates.filter fun c => c.1.slot.required && !f.used.contains c.2).map (·.1.slot.label)

end Flags

end TasScript
