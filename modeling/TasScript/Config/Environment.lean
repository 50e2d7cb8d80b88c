import TasScript.Config.Basic
import TasScript.Entries

/-! Settings from environment variables and from a file of assignments. A variable that is blank
counts as unset; one that is set, if only to blanks, hides the file's. -/

namespace TasScript

/-- The lines of a text. -/
def textLines (cs : List Char) : List (List Char) :=
  match cs with
  | [] => [[]]
  | c :: rest =>
    if c = '\n' then [] :: textLines rest
    else
      match textLines rest with
      | [] => [[c]]
      | l :: ls => (c :: l) :: ls

/-- The assignment on a line; blank lines and comments have none. -/
def assignment? (line : List Char) : Option (String × String) :=
  let body := stripChars isBlank line
  if body.head? = some '#' ∨ !body.contains '=' then none
  else
    some (String.ofList (stripChars isBlank (body.takeWhile (· != '='))),
      String.ofList (stripChars isBlank ((body.dropWhile (· != '=')).drop 1)))

/-- The last of repeated assignments counts. -/
def assignments (file : String) : Entries String :=
  ((textLines file.toList).filterMap assignment?).foldl (fun es (k, v) => es.set k v) []

/-- Variables that are already set are not set again. -/
def withDefaults (env file : Entries String) : Entries String :=
  env ++ file.filter fun (k, _) => (env.get? k).isNone

namespace Config

def variableFields : List (String × String) :=
  [("TAS_CHECK_MAX_REPLAYS", "check_max_replays"), ("TAS_POS_EPSILON", "default_pos_epsilon"),
    ("TAS_ANG_EPSILON", "default_ang_epsilon")]

def ofEnvironment (env : Entries String) : Checked Config :=
  read (variableFields.filterMap fun (name, field) =>
    match env.get? name with
    | some v =>
      if (stripChars isBlank v.toList).isEmpty then none else some (field, .text v)
    | none => none)

end Config

end TasScript
