import TasScript.Datum.Checked

/-! The settings of a script's session. -/

namespace TasScript

structure Config where
  maxReplays : Nat := 15
  posEpsilon : Float := 0.5
  angEpsilon : Float := 0.2

namespace Config

open Datum in
def read (fields : List (String × Datum)) : Checked Config :=
  Config.mk <$> optional fields "check_max_replays" 15 toNatural
    <*> optional fields "default_pos_epsilon" 0.5 toNonnegative
    <*> optional fields "default_ang_epsilon" 0.2 toNonnegative

end Config

end TasScript
