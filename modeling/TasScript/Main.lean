import TasScript.CommandLine.Run

/-! The program: arguments and settings in, the answer out. -/

namespace TasScript

/-- The settings of the environment, then those of a file in the working directory. -/
def readSettings : IO (Entries String) := do
  let mut env : Entries String := []
  for (name, _) in Config.variableFields do
    if let some v ← IO.getEnv name then env := env.set name v
  let file ← try IO.FS.readFile ".env" catch _ => pure ""
  return withDefaults env (assignments file)

end TasScript

def main (arguments : List String) : IO UInt32 := do
  match TasScript.CommandLine.run arguments (← TasScript.readSettings) with
  | .ok output =>
    IO.print output.text
    IO.eprint output.errors
    return output.code
  | .error d =>
    IO.eprintln d.message
    return 1
