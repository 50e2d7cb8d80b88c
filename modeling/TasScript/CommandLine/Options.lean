import TasScript.Decimal.Numeral
import TasScript.Text.Quoted

/-! The options of the command line. Long options may be cut short as long as one option alone
fits, a value stands behind an equals sign or in the next word, and help is given as soon as it is
asked for. -/

namespace TasScript.CommandLine

inductive Flag where
  | help
  | list
  | describe
  | logDir
  | debug
  deriving Repr, DecidableEq

namespace Flag

def takesValue : Flag → Bool
  | describe | logDir => true
  | _ => false

/-- All spellings of a flag, as errors name it. -/
def title : Flag → String
  | help => "-h/--help"
  | list => "--list"
  | describe => "--describe"
  | logDir => "--log-dir"
  | debug => "--debug"

def spellings : List (String × Flag) :=
  [("-h", help), ("--help", help), ("--list", list), ("--describe", describe),
    ("--log-dir", logDir), ("--debug", debug)]

end Flag

/-- How a word of the command line is read. -/
inductive Word where
  | plain
  | known (flag : Flag) (value : Option String)
  | shortHelp (tail : List Char)
  | unknown
  | ambiguous (spellings : List String)

/-- Digits with at most a point among them, behind a minus. -/
def isNegativeNumber (cs : List Char) : Bool :=
  match dropLineBreak cs with
  | '-' :: body =>
    match body.dropWhile isDigit with
    | [] => !body.isEmpty
    | '.' :: fraction => !fraction.isEmpty && fraction.all isDigit
    | _ => false
  | _ => false

/-- The text before the first equals sign, and the text behind it where there is one. -/
def splitEquals (cs : List Char) : List Char × Option (List Char) :=
  match cs.dropWhile (· != '=') with
  | [] => (cs, none)
  | _ :: value => (cs.takeWhile (· != '='), some value)

/-- A word that starts with a dash and is no option by itself is plain if it has a blank. -/
def strayWord (cs : List Char) : Word :=
  if isNegativeNumber cs || cs.contains ' ' then .plain else .unknown

/-- A word with two dashes is compared with the start of every long option. -/
def longWord (cs : List Char) : Word :=
  let (stem, value) := splitEquals cs
  match Flag.spellings.lookup (String.ofList stem) with
  | some flag => .known flag (value.map String.ofList)
  | none =>
    match Flag.spellings.filter fun s => stem.isPrefixOf s.1.toList with
    | [] => strayWord cs
    | [(_, flag)] => .known flag (value.map String.ofList)
    | several => .ambiguous (several.map Prod.fst)

def readWord (s : String) : Word :=
  match s.toList with
  | ['-', 'h'] => .known .help none
  | '-' :: 'h' :: '=' :: value => .known .help (some (String.ofList value))
  | '-' :: 'h' :: tail => .shortHelp tail
  | '-' :: '-' :: rest => longWord ('-' :: '-' :: rest)
  | '-' :: c :: rest => strayWord ('-' :: c :: rest)
  | _ => .plain

structure Options where
  list : Bool := false
  describe : Option String := none
  debug : Bool := false
  /-- Words that belong to no option. -/
  strays : List String := []
  deriving Repr, DecidableEq

inductive Parsed where
  | help
  | failed (message : String)
  | done (options : Options)
  deriving DecidableEq

def ignoredValue (flag : Flag) (value : String) : String :=
  "argument " ++ flag.title ++ ": ignored explicit argument " ++ quoted value

/-- What is wrong with the letters that follow a short option, if anything. -/
def shortTailFault? (behindEquals : Bool) : List Char → Option String
  | [] => some (ignoredValue .help "")
  | c :: cs =>
    if behindEquals || c == '-' then some (ignoredValue .help (String.ofList (c :: cs)))
    else if c = 'h' then
      match cs with
      | [] => none
      | '=' :: value => shortTailFault? true value
      | d :: ds => shortTailFault? false (d :: ds)
    else none

def set (o : Options) : Flag → String → Options
  | .list, _ => { o with list := true }
  | .debug, _ => { o with debug := true }
  | .describe, v => { o with describe := some v }
  | .help, _ | .logDir, _ => o

def expectedValue (flag : Flag) : String := "argument " ++ flag.title ++ ": expected one argument"

/-- The options of the words in front of a bare pair of dashes; `rest` stands behind it. -/
def consume (rest : List String) (o : Options) : List (String × Word) → Parsed
  | [] => .done { o with strays := o.strays ++ rest }
  | (_, .known .help none) :: _ => .help
  | (_, .known flag none) :: words =>
    if flag.takesValue then
      match words with
      | (value, .plain) :: words => consume rest (set o flag value) words
      | _ => .failed (expectedValue flag)
    else consume rest (set o flag "") words
  | (_, .known flag (some value)) :: words =>
    if flag.takesValue then consume rest (set o flag value) words
    else .failed (ignoredValue flag value)
  | (_, .shortHelp tail) :: _ =>
    match shortTailFault? false tail with
    | some message => .failed message
    | none => .help
  | (s, _) :: words => consume rest { o with strays := o.strays ++ [s] } words

/-- The first word that several options fit. -/
def ambiguity? : List (String × Word) → Option String
  | [] => none
  | (s, .ambiguous several) :: _ =>
    some ("ambiguous option: " ++ s ++ " could match " ++ ", ".intercalate several)
  | _ :: words => ambiguity? words

/-- Ambiguous words are turned down before anything else, stray words after everything else. -/
def parse (arguments : List String) : Parsed :=
  let words := (arguments.takeWhile (· != "--")).map fun s => (s, readWord s)
  match ambiguity? words with
  | some message => .failed message
  | none =>
    match consume (arguments.dropWhile (· != "--")) {} words with
    | .done o =>
      if o.strays.isEmpty then .done o
      else .failed ("unrecognized arguments: " ++ " ".intercalate o.strays)
    | parsed => parsed

end TasScript.CommandLine
