/-! The records that a run leaves behind. Every record of a tick starts with its number, padded to
five places. -/

namespace TasScript

inductive Level where
  | debug
  | info
  | warning
  deriving Repr, DecidableEq

namespace Level

def name : Level → String
  | debug => "DEBUG"
  | info => "INFO"
  | warning => "WARNING"

end Level

structure Record where
  level : Level
  logger : String
  message : String
  deriving Repr, DecidableEq

namespace Log

def root : String := "tastools"

/-- A logger of the root, under its own name or below it. -/
def loggerName (name : String) : String :=
  if name = root ∨ (root ++ ".").toList.isPrefixOf name.toList then name else root ++ "." ++ name

def activeTools : String := "tastools.services.active_tools"

def matcher : String := "tastools.runtime.matcher"

def session : String := "tastools.runtime.session"

def checks : String := "tastools.services.check_coordinator"

/-- A tick in five places; the sign takes one of them. -/
def tickText (tick : Int) : String :=
  let digits := toString tick.natAbs
  let signText := if tick < 0 then "-" else ""
  signText ++ String.ofList (List.replicate (5 - signText.length - digits.length) '0') ++ digits

/-- Details are set off only where there are any. -/
def detailsText : Option String → String
  | none => ""
  | some d => if d.isEmpty then "" else " | " ++ d

def line (tick : Int) (parts : List String) (details : Option String) : String :=
  "TICK " ++ tickText tick ++ " | " ++ " | ".intercalate parts ++ detailsText details

def tick (logger : String) (tick : Int) (phase : String) (details : Option String) : Record :=
  ⟨.debug, logger, line tick [phase] details⟩

def invocation (logger : String) (tick : Int) (tool : String) (success : Bool)
    (details : Option String) : Record :=
  ⟨if success then .debug else .info, logger,
    line tick ["MATCH", tool, if success then "OK" else "FAILED"] details⟩

def tool (logger : String) (tick : Int) (tool action : String) (details : Option String) : Record :=
  ⟨.debug, logger, line tick ["TOOL", tool, action] details⟩

def check (logger : String) (tick : Int) (outcome : String) (replaysUsed : Int)
    (details : Option String) : Record :=
  ⟨.info, logger, line tick ["CHECK", outcome, "replays=" ++ toString replaysUsed] details⟩

end Log

end TasScript
