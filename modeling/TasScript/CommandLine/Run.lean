import TasScript.CommandLine.Options
import TasScript.Config.Environment
import TasScript.Registry

/-! The command line: the catalogue as a table, or the syntax text of one tool. -/

namespace TasScript.CommandLine

structure Output where
  code : UInt32 := 0
  text : String := ""
  errors : String := ""
  deriving Repr, DecidableEq

def usage : String :=
  "usage: main.py [-h] [--list] [--describe TOOL] [--log-dir LOG_DIR] [--debug]\n"

def help : String :=
  usage ++ "\ntastools - TAS script tool catalogue\n\noptions:\n" ++
  "  -h, --help         show this help message and exit\n" ++
  "  --list             List every tool in execution order\n" ++
  "  --describe TOOL    Print the syntax description of one tool\n" ++
  "  --log-dir LOG_DIR  Directory for the debug log (default: ./logs)\n" ++
  "  --debug            Enable debug logging on the console\n"

def blanks (n : Nat) : String := String.ofList (List.replicate n ' ')

def padLeft (width : Nat) (s : String) : String := blanks (width - s.length) ++ s

def padRight (width : Nat) (s : String) : String := s ++ blanks (width - s.length)

def row (number tool order off active duration : String) : String :=
  padLeft 3 number ++ "  " ++ padRight 10 tool ++ " " ++ padRight 10 order ++ " " ++
    padRight 5 off ++ " " ++ padRight 7 active ++ " " ++ duration

def yesNo (b : Bool) : String := if b then "yes" else "no"

def schemaRow (s : Schema) : String :=
  let duration := match s.durationSlot with
    | some slot => "slot " ++ toString slot
    | none => "-"
  row (toString s.priority) s.name (if s.fixedOrder then "fixed" else "any") (yesNo s.hasOff)
    (yesNo s.registersActiveState) duration

def rule : String := String.ofList (List.replicate 50 '-')

def settingsLine (c : Config) : String :=
  "check: max replays " ++ toString c.maxReplays ++ ", posepsilon " ++ exactText c.posEpsilon ++
    ", angepsilon " ++ exactText c.angEpsilon

def table (r : Registry) (c : Config) : List String :=
  [row "#" "tool" "order" "off" "active" "duration", rule] ++ r.schemas.map schemaRow ++
    [rule, settingsLine c]

def printed (lines : List String) : String := String.join (lines.map (· ++ "\n"))

def describe (r : Registry) (name : String) : Output :=
  match r.lookup? name with
  | some s => { text := printed [s.description] }
  | none =>
    { code := 1
      text := printed ["Unknown tool: " ++ name, "Known tools: " ++ ", ".intercalate r.names] }

/-- A description wins over the table; an empty name asks for none. -/
def answer (o : Options) (c : Config) : Output :=
  match o.describe.filter (!·.isEmpty) with
  | some name => describe Registry.builtIn name
  | none => if o.list then { text := printed (table Registry.builtIn c) } else { text := help }

/-- The settings are read once the options are sound, whatever these ask for. -/
def run (arguments : List String) (env : Entries String) : Except Defect Output :=
  match parse arguments with
  | .help => .ok { text := help }
  | .failed message => .ok { code := 2, errors := usage ++ "main.py: error: " ++ message ++ "\n" }
  | .done o => (Subject.config.accept (Config.ofEnvironment env)).map (answer o)

end TasScript.CommandLine
