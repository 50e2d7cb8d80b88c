import TasScript.Decimal.Setting
import TasScript.Defect
import TasScript.Entries
import TasScript.Grammar.Schema
import TasScript.Invocation.Flags

/-! The result of matching one invocation against the grammar of its tool. -/

namespace TasScript

inductive Verdict where
  | bound (values : List (Option Value)) (extra : List Token)
  | off
  | refused (refusal : Refusal)
  deriving DecidableEq

structure Match where
  tool : String
  verdict : Verdict
  span : Option Span
  schema : Option Schema

namespace Match

def succeeded (m : Match) : Bool :=
  match m.verdict with
  | .refused _ => false
  | _ => true

def isOff (m : Match) : Bool :=
  match m.verdict with
  | .off => true
  | _ => false

def refusal? (m : Match) : Option Refusal :=
  match m.verdict with
  | .refused r => some r
  | _ => none

/-- One value for each slot of the grammar; turned off, a tool binds none of them. -/
def values (m : Match) : List (Option Value) :=
  match m.verdict with
  | .bound vs _ => vs
  | .off => List.replicate ((m.schema.map (·.slotCount)).getD 0) none
  | .refused _ => []

def extra (m : Match) : List Token :=
  match m.verdict with
  | .bound _ ts => ts
  | _ => []

/-- The arguments behind the grammar, joined to a text. -/
def extraText (m : Match) : String := " ".intercalate (m.extra.map (·.text))

def valueAt? (m : Match) (i : Int) : Option Value :=
  if i < 0 then none else (m.values[i.toNat]?).getD none

theorem valueAt?_eq_some_iff {m : Match} {i : Nat} {v : Value} :
    m.valueAt? i = some v ↔ m.values[i]? = some (some v) := by
  have hi : ¬ (i : Int) < 0 := by omega
  rw [valueAt?, if_neg hi, Int.toNat_natCast]
  cases m.values[i]? <;> simp

/-- The bound values under the keys of their slots; of two slots with one key the later counts. -/
def named (m : Match) : Entries Value :=
  match m.schema with
  | none => []
  | some s =>
    (s.slots.zip m.values).foldl (fun es (slot, v) =>
      match slot.key, v with
      | some key, some v => es.set key v
      | _, _ => es) []

end Match

/-- A value as a count of ticks, rounded toward zero. -/
def Value.toTicks : Value → Except Defect Int
  | .amount (.whole n) => .ok n
  | .amount (.real x) =>
    match truncated? x with
    | some n => .ok n
    | none => .error (if x.isNaN then .undefinedDuration else .infiniteDuration)
  | .word s =>
    match wordInteger s with
    | .ok n => .ok n
    | .error .notDigits => .error (.wordDuration s)
    | .error (.tooManyDigits count) => .error (.longDuration count)

/-- The bound duration; none where the tool has none or its slot is empty. -/
def Match.duration (m : Match) : Except Defect (Option Int) :=
  match m.schema.bind (·.durationSlot) with
  | none => .ok none
  | some slot =>
    match m.valueAt? slot with
    | none => .ok none
    | some v => v.toTicks.map some

namespace Schema

def line (s : Schema) (tokens : List Token) (nameToken : Option Token) : Line :=
  ⟨s.name, tokens, nameToken⟩

/-- What is left behind a grammar in fixed order is extra or too much. -/
def walkOrdered (s : Schema) (l : Line) : Except Miss (List (Option Value) × List Token) :=
  match Node.walkAll l 0 (.start s.slotCount) s.arguments with
  | .failed miss _ => .error miss
  | .done p =>
    match l.tokens.drop p.pos with
    | [] => .ok (p.values, [])
    | t :: ts =>
      if s.allowArbitraryArguments then .ok (p.values, t :: ts)
      else .error ⟨.trailing t.text s.name, p.pos, spanOf? (t :: ts)⟩

def walkFlags (s : Schema) (l : Line) : Except Miss (List (Option Value) × List Token) :=
  let candidates := Node.placed 0 s.arguments
  match Flags.gather l s.allowArbitraryArguments candidates l.tokens.length
      { progress := .start s.slotCount } with
  | .error miss => .error miss
  | .ok f =>
    match Flags.missing candidates f with
    | [] => .ok (f.progress.values, f.extra)
    | labels => .error (l.missAt f.progress.pos (.flagsMissing labels))

/-- The bound values and the extra tokens of a grammar walked over a line. -/
def walk (s : Schema) (l : Line) : Except Miss (List (Option Value) × List Token) :=
  if s.fixedOrder then s.walkOrdered l else s.walkFlags l

/-- Whether there are arguments and none of them is required. -/
def allOptional (s : Schema) : Bool :=
  !s.arguments.isEmpty && !s.arguments.any fun n => n.slot.required

def offKeyword : String := "off"

def offTokens (tokens : List Token) : List Token := tokens.filter fun t => t.isKeyword offKeyword

/-- The verdict on the tokens behind a tool's name, or what is wrong and where. -/
def judge (s : Schema) (l : Line) : Except (Mismatch × Option Span) Verdict :=
  if l.tokens.isEmpty then
    if !s.expectsArguments || s.allOptional then .ok (.bound (List.replicate s.slotCount none) [])
    else .error (.argumentsExpected s.name, l.endSpan?)
  else
    match if s.hasOff then (offTokens l.tokens).head? else none with
    | some t => if l.tokens.length = 1 then .ok .off else .error (.offNotAlone, some t.span)
    | none =>
      match s.walk l with
      | .ok (values, extra) => .ok (.bound values extra)
      | .error miss => .error (miss.mismatch, miss.span)

/-- Matches the arguments of one invocation; the name, where it is given, anchors the spans. -/
def matchTokens (s : Schema) (tokens : List Token) (nameToken : Option Token) : Match :=
  let l := s.line tokens nameToken
  match s.judge l with
  | .ok verdict => ⟨s.name, verdict, l.fullSpan?, some s⟩
  | .error (m, span) => ⟨s.name, .refused ⟨m.kind, m.message, span⟩, span, some s⟩

end Schema

end TasScript
