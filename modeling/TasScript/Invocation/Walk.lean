import TasScript.Grammar.Node
import TasScript.Invocation.Value

/-! The walk of a grammar over the tokens of one invocation. A node whose own slot was bound is
never given up: a failure below it is the failure of the whole. An optional node passes over a
failure of its alternative that touched no token. -/

namespace TasScript

/-- The tokens behind a tool's name, with the name where it is known. -/
structure Line where
  tool : String
  tokens : List Token
  nameToken : Option Token

/-- A failure at the token with a given index, or behind the last one. -/
structure Miss where
  mismatch : Mismatch
  index : Nat
  span : Option Span
  deriving DecidableEq

namespace Line

/-- The empty range behind the last token. -/
def endSpan? (l : Line) : Option Span :=
  match l.tokens.getLast? with
  | some t => some t.span.after
  | none => l.nameToken.map (·.span.after)

def fullSpan? (l : Line) : Option Span :=
  match l.nameToken, l.tokens.head? with
  | some first, _ | none, some first =>
    some (first.span.covering (l.tokens.getLast?.getD first).span)
  | none, none => none

def missAt (l : Line) (pos : Nat) (m : Mismatch) : Miss :=
  match l.tokens[pos]? with
  | some t => ⟨m, pos, some t.span⟩
  | none => ⟨m, pos, l.endSpan?⟩

end Line

/-- How far a walk has come: the tokens it has read and the slots it has bound. -/
structure Progress where
  pos : Nat
  values : List (Option Value)
  deriving DecidableEq

namespace Progress

def start (slots : Nat) : Progress := ⟨0, List.replicate slots none⟩

def bind (p : Progress) (slot : Nat) (v : Value) : Progress :=
  ⟨p.pos + 1, p.values.set slot (some v)⟩

end Progress

/-- A failed walk keeps the progress it had made. -/
inductive Walked where
  | done (p : Progress)
  | failed (miss : Miss) (p : Progress)

/-- Binds the next token to a node's own slot. -/
def Line.bindHead (l : Line) (s : Slot) (slot : Nat) (p : Progress) : Except Miss Progress :=
  match l.tokens[p.pos]? with
  | none => .error (l.missAt p.pos (.nothingLeft s.label))
  | some t =>
    match s.bind t with
    | .ok v => .ok (p.bind slot v)
    | .error m => .error (l.missAt p.pos m)

/-- What a required node reports where neither it nor its alternative matched. -/
def Line.noAlternative (l : Line) (s : Slot) (p : Progress) : Miss :=
  l.missAt p.pos (.noAlternative s.label (decide (l.tokens.length ≤ p.pos)))

namespace Node

mutual

/-- Walks one node whose own slot has the number `slot`. -/
def walk (l : Line) (slot : Nat) (p : Progress) : Node → Walked
  | mk s children otherwise =>
    match l.bindHead s slot p with
    | .ok q => walkAll l (slot + 1) q children
    | .error miss =>
      if !miss.mismatch.isSoft then .failed miss p
      else if otherwise.isEmpty then
        if s.required then .failed miss p else .done p
      else
        match walkAll l (slot + 1 + slotCount children) p otherwise with
        | .done q => .done q
        | .failed inner q =>
          if inner.mismatch.isSoft && decide (inner.index ≤ p.pos) then
            if s.required then .failed (l.noAlternative s p) p else .done p
          else .failed inner q

/-- Walks nodes one after the other, the first with the slot number `slot`. -/
def walkAll (l : Line) (slot : Nat) (p : Progress) : List Node → Walked
  | [] => .done p
  | n :: ns =>
    match walk l slot p n with
    | .done q => walkAll l (slot + n.size) q ns
    | .failed miss q => .failed miss q

end

end Node

end TasScript
