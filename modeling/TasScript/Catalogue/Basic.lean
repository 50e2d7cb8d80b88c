import TasScript.Grammar.Form
import TasScript.Catalogue.Texts

/-! The fixed catalogue of tools, in their order of execution. -/

namespace TasScript.Catalogue

open Slot

def easings : List String := ["cubic", "exp", "exponential", "linear", "sin", "sine"]

def easingWord : Slot := { word "easing" with choices := some easings }

def check : Schema where
  name := "check"
  fixedOrder := true
  hasOff := false
  registersActiveState := false
  arguments := [
    .mk (keyword "pos") [.leaf (number "x").needed, .leaf (number "y").needed,
      .leaf (number "z").needed] [],
    .mk (keyword "ang") [.leaf (number "pitch").needed, .leaf (number "yaw").needed] [],
    .mk (keyword "posepsilon") [.leaf { (number "posepsilon").needed with minimum := some 0 }] [],
    .mk (keyword "angepsilon") [.leaf { (number "angepsilon").needed with minimum := some 0 }] []]
  expectsArguments := true
  priority := 0
  description := checkText

def cmd : Schema where
  name := "cmd"
  fixedOrder := false
  hasOff := false
  registersActiveState := false
  expectsArguments := true
  allowArbitraryArguments := true
  priority := 1
  description := cmdText

def stop : Schema where
  name := "stop"
  fixedOrder := false
  hasOff := false
  registersActiveState := false
  expectsArguments := false
  priority := 2
  description := stopText
  stopsAllTools := true

def use : Schema where
  name := "use"
  fixedOrder := true
  hasOff := false
  registersActiveState := false
  arguments := [.leaf ((keyword "spam").describedAs "Spams ```+use``` every other tick")]
  expectsArguments := false
  priority := 3
  description := useText

def duck : Schema where
  name := "duck"
  fixedOrder := true
  hasOff := true
  registersActiveState := true
  durationSlot := some 1
  arguments := [
    .mk ((keyword "on").describedAs "Enables ```duck```.") []
      [.leaf (ticks.describedAs "Duck duration, in ticks")]]
  expectsArguments := false
  priority := 4
  description := duckText

def zoom : Schema where
  name := "zoom"
  fixedOrder := true
  hasOff := false
  registersActiveState := false
  arguments := [
    .leaf ((keyword "in").describedAs "Zooms in"),
    .leaf ((keyword "out").describedAs "Zooms out"),
    .leaf ((keyword "toggle").describedAs "Toggles zoom")]
  expectsArguments := true
  priority := 5
  description := zoomText

def shoot : Schema where
  name := "shoot"
  fixedOrder := false
  hasOff := true
  registersActiveState := false
  arguments := [
    .leaf (((keyword "blue").describedAs "Shoots the blue portal").inGroup "portal"),
    .leaf (((keyword "orange").describedAs "Shoots the orange portal").inGroup "portal"),
    .leaf ((keyword "spam").describedAs
      "Automates spamming, automatically detecting the portal gun's cooldown")]
  expectsArguments := true
  priority := 6
  description := shootText

def setang : Schema where
  name := "setang"
  fixedOrder := true
  hasOff := false
  registersActiveState := true
  durationSlot := some 2
  arguments := [
    .leaf (number "pitch").needed,
    .leaf (number "yaw").needed,
    .leaf (ticks.describedAs "Time to reach the angles, in ticks"),
    .leaf (easingWord.describedAs ("Easing type for the setang among: `cubic`, " ++
      "`exp`/`exponential`, `linear` or `sin`/`sine`"))]
  expectsArguments := true
  priority := 7
  description := setangText

def autoaim : Schema where
  name := "autoaim"
  fixedOrder := true
  hasOff := true
  registersActiveState := true
  durationSlot := some 6
  arguments := [
    .mk (keyword "ent")
      [.mk (word "entity") []
        [.leaf { (number "entity_index").needed with integer := true, minimum := some 0 }]]
      [.leaf (number "x").needed, .leaf (number "y").needed, .leaf (number "z").needed],
    .leaf (ticks.describedAs "Time to reach the target, in ticks"),
    .leaf (easingWord.describedAs easingText)]
  expectsArguments := true
  priority := 8
  description := autoaimText

def look : Schema where
  name := "look"
  fixedOrder := true
  hasOff := true
  registersActiveState := true
  durationSlot := some 5
  arguments := [
    .mk (keyword "stop") []
      [.mk { number "pitch" with unit := some "deg" }
        [.leaf { (number "yaw").needed with unit := some "deg" }]
        [.leaf (word "direction").needed, .leaf (word "direction2")]],
    .leaf (ticks.describedAs "Look duration, in ticks")]
  expectsArguments := true
  priority := 9
  description := lookText

def autojump : Schema where
  name := "autojump"
  fixedOrder := true
  hasOff := true
  registersActiveState := true
  arguments := [
    .leaf ((keyword "on").describedAs "Enables ```autojump```."),
    .leaf ((keyword "duck").describedAs duckingText),
    .leaf ((keyword "ducked").describedAs duckingText)]
  expectsArguments := true
  priority := 10
  description := autojumpText

def absmov : Schema where
  name := "absmov"
  fixedOrder := true
  hasOff := true
  registersActiveState := true
  arguments := [
    .leaf { number "angle" with unit := some "deg?" },
    .leaf { number "strength" with minimum := some 0, maximum := some 1 }]
  expectsArguments := true
  priority := 11
  description := absmovText

def move : Schema where
  name := "move"
  fixedOrder := true
  hasOff := true
  registersActiveState := true
  arguments := [
    .mk (keyword "stop") []
      [.mk { number "angle" with unit := some "deg" } []
        [.leaf (word "direction").needed, .leaf (word "direction2")],
      .leaf ((number "scale").describedAs "Scale factor")]]
  expectsArguments := true
  priority := 12
  description := moveText

/-- A flag of the strafe tool, one at most of each group. -/
def strafeFlag (text group description : String) : Node :=
  .leaf (((keyword text).describedAs description).inGroup group)

def strafe : Schema where
  name := "strafe"
  fixedOrder := false
  hasOff := true
  registersActiveState := true
  arguments := [
    strafeFlag "vec" "type" vecText,
    strafeFlag "ang" "type" angText,
    strafeFlag "veccam" "type" veccamText,
    strafeFlag "max" "speed" maxText,
    strafeFlag "keep" "speed" keepText,
    strafeFlag "forward" "direction" forwardText,
    strafeFlag "forwardvel" "direction" forwardvelText,
    strafeFlag "left" "direction" leftText,
    strafeFlag "right" "direction" rightText,
    .leaf ((keyword "nopitchlock").describedAs nopitchlockText),
    .leaf ((keyword "letspeedlock").describedAs letspeedlockText),
    .leaf ({ number "speed" with unit := some "ups", minimum := some 0 }.inGroup "speed"),
    .leaf ({ number "angle" with unit := some "deg" }.inGroup "direction")]
  expectsArguments := true
  priority := 13
  description := strafeText

def decel : Schema where
  name := "decel"
  fixedOrder := true
  hasOff := true
  registersActiveState := true
  arguments := [.leaf { number "speed" with unit := some "ups?", minimum := some 0 }]
  expectsArguments := true
  priority := 14
  description := decelText

end TasScript.Catalogue

namespace TasScript

def catalogue : List Schema :=
  [Catalogue.check, Catalogue.cmd, Catalogue.stop, Catalogue.use, Catalogue.duck, Catalogue.zoom,
    Catalogue.shoot, Catalogue.setang, Catalogue.autoaim, Catalogue.look, Catalogue.autojump,
    Catalogue.absmov, Catalogue.move, Catalogue.strafe, Catalogue.decel]

theorem catalogue_accepted : ∀ s ∈ catalogue, s.Accepted := by decide

end TasScript
