import TasScript.Invocation.Match
import TasScript.Proofs.Walk

/-! The match that only ever goes onward. It keeps no copy of its progress, so that an alternative
that is given up leaves behind whatever it has read and bound. That is nothing, and so both matches
are the same. -/

namespace TasScript

namespace Node

mutual

/-- The walk of one node that goes on from where its alternative was given up. -/
def onward (l : Line) (slot : Nat) (p : Progress) : Node → Walked
  | mk s children otherwise =>
    match l.bindHead s slot p with
    | .ok q => onwardAll l (slot + 1) q children
    | .error miss =>
      if !miss.mismatch.isSoft then .failed miss p
      else if otherwise.isEmpty then
        if s.required then .failed miss p else .done p
      else
        match onwardAll l (slot + 1 + slotCount children) p otherwise with
        | .done q => .done q
        | .failed inner q =>
          if inner.mismatch.isSoft && decide (inner.index ≤ p.pos) then
            if s.required then .failed (l.noAlternative s q) q else .done q
          else .failed inner q

def onwardAll (l : Line) (slot : Nat) (p : Progress) : List Node → Walked
  | [] => .done p
  | n :: ns =>
    match onward l slot p n with
    | .done q => onwardAll l (slot + n.size) q ns
    | .failed miss q => .failed miss q

end

variable {l : Line} {slot : Nat} {p : Progress} {ns : List Node} {w : Walked}

theorem Walks.onwardAll_eq (h : Walks l slot p ns w) : onwardAll l slot p ns = w := by
  induction h with
  | nil => rfl
  | bound hb _ _ ihc ihn => simp [onwardAll, onward, hb, ihc, ihn]
  | childFailed hb _ ihc => simp [onwardAll, onward, hb, ihc]
  | refused hb hr =>
    rcases hr with hr | ⟨rfl, hr⟩
    · simp [onwardAll, onward, hb, hr]
    · simp [onwardAll, onward, hb, hr]
  | skipped hb hs hr _ ihn => simp [onwardAll, onward, hb, hs, hr, ihn]
  | otherwise hb hs ho _ _ iho ihn => simp [onwardAll, onward, hb, hs, ho, iho, ihn]
  | branchFailed hb hs ho _ hf iho =>
    simp only [onwardAll, onward, hb, hs, iho, Bool.and_eq_true, decide_eq_true_eq, if_neg hf]
    simp [ho]
  -- what is given up was given up where it began
  | passed hb hs ho hw hi hx hr _ iho ihn =>
    obtain rfl := hw.eq_of_index_le hx
    simp [onwardAll, onward, hb, hs, ho, iho, hi, hx, hr, ihn]
  | noneLeft hb hs ho hw hi hx hr iho =>
    obtain rfl := hw.eq_of_index_le hx
    simp [onwardAll, onward, hb, hs, ho, iho, hi, hx, hr]

theorem onwardAll_eq (l : Line) (slot : Nat) (p : Progress) (ns : List Node) :
    onwardAll l slot p ns = walkAll l slot p ns :=
  (walks_walkAll l slot p ns).onwardAll_eq

theorem onwardAll_singleton (l : Line) (slot : Nat) (p : Progress) (n : Node) :
    onwardAll l slot p [n] = n.onward l slot p := by
  rw [onwardAll]
  cases n.onward l slot p <;> simp [onwardAll]

theorem onward_eq (l : Line) (slot : Nat) (p : Progress) (n : Node) :
    n.onward l slot p = n.walk l slot p := by
  rw [← onwardAll_singleton, onwardAll_eq, walkAll_singleton]

end Node

namespace Flags

variable {l : Line} {arbitrary : Bool} {candidates : List (Node × Nat)} {f : Flags}

def stepOnward (l : Line) (arbitrary : Bool) (candidates : List (Node × Nat)) (f : Flags)
    (t : Token) : Except Miss Flags :=
  match candidates.filter fun c => c.1.slot.fits t with
  | [] =>
    if arbitrary then .ok (f.pass t)
    else .error (l.missAt f.progress.pos (.unknown t.text l.tool))
  | (first, firstSlot) :: others =>
    match ((first, firstSlot) :: others).find? fun c => !f.used.contains c.2 with
    | none => .error (l.missAt f.progress.pos (.repeated first.slot.label))
    | some (node, slot) =>
      match f.rival? node.slot with
      | some other => .error (l.missAt f.progress.pos (.conflicting node.slot.label other))
      | none =>
        match node.onward l slot f.progress with
        | .done p => .ok (f.take node.slot slot p)
        | .failed miss _ => .error miss

theorem stepOnward_eq (t : Token) :
    stepOnward l arbitrary candidates f t = step l arbitrary candidates f t := by
  simp only [stepOnward, Node.onward_eq]
  rfl

def gatherOnward (l : Line) (arbitrary : Bool) (candidates : List (Node × Nat)) :
    Nat → Flags → Except Miss Flags
  | 0, f => .ok f
  | steps + 1, f =>
    match l.tokens[f.progress.pos]? with
    | none => .ok f
    | some t =>
      match stepOnward l arbitrary candidates f t with
      | .ok g => gatherOnward l arbitrary candidates steps g
      | .error miss => .error miss

theorem gatherOnward_eq (steps : Nat) :
    gatherOnward l arbitrary candidates steps f = gather l arbitrary candidates steps f := by
  induction steps generalizing f with
  | zero => rfl
  | succ steps ih =>
    simp only [gatherOnward, stepOnward_eq, ih]
    rfl

end Flags

namespace Schema

def walkOrderedOnward (s : Schema) (l : Line) : Except Miss (List (Option Value) × List Token) :=
  match Node.onwardAll l 0 (.start s.slotCount) s.arguments with
  | .failed miss _ => .error miss
  | .done p =>
    match l.tokens.drop p.pos with
    | [] => .ok (p.values, [])
    | t :: ts =>
      if s.allowArbitraryArguments then .ok (p.values, t :: ts)
      else .error ⟨.trailing t.text s.name, p.pos, spanOf? (t :: ts)⟩

def walkFlagsOnward (s : Schema) (l : Line) : Except Miss (List (Option Value) × List Token) :=
  let candidates := Node.placed 0 s.arguments
  match Flags.gatherOnward l s.allowArbitraryArguments candidates l.tokens.length
      { progress := .start s.slotCount } with
  | .error miss => .error miss
  | .ok f =>
    match Flags.missing candidates f with
    | [] => .ok (f.progress.values, f.extra)
    | labels => .error (l.missAt f.progress.pos (.flagsMissing labels))

def walkOnward (s : Schema) (l : Line) : Except Miss (List (Option Value) × List Token) :=
  if s.fixedOrder then s.walkOrderedOnward l else s.walkFlagsOnward l

theorem walkOnward_eq (s : Schema) (l : Line) : s.walkOnward l = s.walk l := by
  have hordered : s.walkOrderedOnward l = s.walkOrdered l := by
    simp only [walkOrderedOnward, Node.onwardAll_eq]
    rfl
  have hflags : s.walkFlagsOnward l = s.walkFlags l := by
    simp only [walkFlagsOnward, Flags.gatherOnward_eq]
    rfl
  rw [walkOnward, walk, hordered, hflags]

def judgeOnward (s : Schema) (l : Line) : Except (Mismatch × Option Span) Verdict :=
  if l.tokens.isEmpty then
    if !s.expectsArguments || s.allOptional then .ok (.bound (List.replicate s.slotCount none) [])
    else .error (.argumentsExpected s.name, l.endSpan?)
  else
    match if s.hasOff then (offTokens l.tokens).head? else none with
    | some t => if l.tokens.length = 1 then .ok .off else .error (.offNotAlone, some t.span)
    | none =>
      match s.walkOnward l with
      | .ok (values, extra) => .ok (.bound values extra)
      | .error miss => .error (miss.mismatch, miss.span)

def matchOnward (s : Schema) (tokens : List Token) (nameToken : Option Token) : Match :=
  let l := s.line tokens nameToken
  match s.judgeOnward l with
  | .ok verdict => ⟨s.name, verdict, l.fullSpan?, some s⟩
  | .error (m, span) => ⟨s.name, .refused ⟨m.kind, m.message, span⟩, span, some s⟩

theorem matchOnward_eq (s : Schema) (tokens : List Token) (name : Option Token) :
    s.matchOnward tokens name = s.matchTokens tokens name := by
  have hjudge : s.judgeOnward (s.line tokens name) = s.judge (s.line tokens name) := by
    simp only [judgeOnward, walkOnward_eq]
    rfl
  simp only [matchOnward, hjudge]
  rfl

end Schema

end TasScript
