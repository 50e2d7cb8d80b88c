import TasScript.Grammar.Reading

/-! The four forms in which the nodes of a grammar are written: keywords, numbers, words, and
durations in whole ticks. -/

namespace TasScript

namespace Slot

def keyword (text : String) : Slot := { kind := .string, text := some text }

def number (key : String) : Slot := { kind := .number, key := some key }

def word (key : String) : Slot := { kind := .string, key := some key }

/-- A duration is a positive number of whole ticks. -/
def ticks : Slot := { number "duration" with integer := true, minimum := some 1 }

def describedAs (s : Slot) (description : String) : Slot :=
  { s with description := some description }

def needed (s : Slot) : Slot := { s with required := true }

def inGroup (s : Slot) (group : String) : Slot := { s with group := some group }

end Slot

inductive Form where
  | keyword
  | number
  | word
  | ticks
  deriving Repr, DecidableEq

namespace Form

def names : List (String × Form) :=
  [("keyword", keyword), ("number", number), ("word", word), ("ticks", ticks)]

/-- The attributes that a form leaves open. -/
def attributes : Form → List String
  | keyword => ["required", "text", "description", "group"]
  | number => ["required", "unit", "key", "integer", "minimum", "maximum", "description", "group"]
  | word => ["required", "key", "choices", "description"]
  | ticks => ["key", "description"]

/-- The attributes that a form settles; a key is settled only where none is given. -/
def settled : Form → List (String × Datum)
  | keyword | word => [("kind", .text "string")]
  | number => [("kind", .text "number")]
  | ticks =>
    [("kind", .text "number"), ("key", .text "duration"), ("integer", .boolean true),
      ("minimum", .integer 1)]

/-- The nodes of a list of records, each checked on its own; the first faulty one is reported. -/
def readNodes : List Datum → Checked (List Node)
  | [] => .ofValue []
  | d :: ds =>
    match Node.read d with
    | .error fs => .ofFaults fs
    | .ok n => (n :: ·) <$> readNodes ds

def nodesAt (attributes : List (String × Datum)) (name : String) : Checked (List Node) :=
  match attributes.lookup name with
  | some (.list items) => readNodes items
  | _ => .ofValue []

/-- A node of this form; the nodes below it are read before it. -/
def read (form : Form) (given : List (String × Datum)) : Checked Node :=
  match nodesAt given "children", nodesAt given "otherwise" with
  | .error fs, _ => .ofFaults fs
  | _, .error fs => .ofFaults fs
  | .ok children, .ok otherwise =>
    let chosen := given.filter fun field => form.attributes.contains field.1
    Node.ofFields (chosen ++ form.settled) (.ofValue children) (.ofValue otherwise)

end Form

end TasScript
