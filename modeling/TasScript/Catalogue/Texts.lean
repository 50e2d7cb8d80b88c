/-! The syntax texts of the tools, as a user reads them. -/

namespace TasScript.Catalogue

def checkText : String :=
  "**Syntax:** ```check [pos x y z] [ang pitch yaw] [posepsilon val] [angepsilon " ++
  "val]```\n\nThe check tool accepts a target position and angle, and a precision value " ++
  "(posepsilon (default: 0.5), angepsilon (default: 0.2)). **Before** the tick it is on, " ++
  "it will check whether the player position is close to (meaning \"within posepsilon / " ++
  "angepsilon units\") the target position, and if not, replay the active script. It will " ++
  "do this a maximum of ```sar_tas_check_max_replays``` (default 15) " ++
  "times.\n\n**Example:** ```check pos 100 250 312.7```"

def cmdText : String :=
  "**Syntax:** ```cmd <command>```\n\nRuns the provided console command. Not encased in " ++
  "quotes.\n\n**Example:** ```cmd say hello world!```"

def stopText : String :=
  "**Syntax:** ```stop```\n\nStops every tool activated prior to given " ++
  "tick.\n\n**Example:** ```stop```"

def useText : String :=
  "**Syntax:** ```use [spam]```\n\nPresses the ```+use``` input. It also has an option for " ++
  "spamming, which will spam +use every other tick.\n\n**Example:** ```use spam```"

def duckText : String :=
  "**Syntax:** ```duck [duration]```\n\nPresses the duck input. Can take a number " ++
  "parameter for a duration.\n\n**Example:** ```duck 20```"

def zoomText : String :=
  "**Syntax:** ```zoom [action]```\n\nUsed for zooming in and out. Also detects whether to " ++
  "press an input based on whether you're zooming or not.\n\n**Example:** ```zoom in```"

def shootText : String :=
  "**Syntax:** ```shoot [portal]```\n\nUsed to shoot portals. Can automate spamming with " ++
  "the ```spam``` property, which will automatically detect the portal gun's " ++
  "cooldown.\n\n**Example:** ```shoot blue```"

def setangText : String :=
  "**Syntax:** ```setang <pitch> <yaw> [time] [easing]```\n\nThis tool works basically the " ++
  "same as setang console command. It will adjust the view analog in a way so the camera " ++
  "is looking towards given angles.\n\n**Example:** ```setang 0 0 20```"

def autoaimText : String :=
  "**Syntax:** ```autoaim [ent] <x> <y> <z> [time] [easing]```\n\nThe Auto Aim tool will " ++
  "automatically aim towards a specified point in 3D space.\n\n**Example:** ```autoaim 0 0 " ++
  "0 20```"

def lookText : String :=
  "**Syntax:** ```look <pitch> <yaw> [time]```\n\nCan be used to control the view analog. " ++
  "It also accepts additional parameters, like word-based directions or " ++
  "time.\n\n**Example:** ```look 10deg 173deg 10```"

def autojumpText : String :=
  "**Syntax:** ```autojump [on|duck|ducked]```\n\nAnything other than ```on```, ```duck``` " ++
  "or ```ducked``` will disable the tool.\n\nAutojump tool will change the jump button " ++
  "state depending on whether the player is grounded or not, resulting in automatically " ++
  "jumping on the earliest contact with a ground.\n\n**Example:** ```autojump on```"

def absmovText : String :=
  "**Syntax:** ```absmov <angle> [strength]```\n\nAbsolute movement tool will generate " ++
  "movement values depending on the absolute move direction you provide in degrees. Giving " ++
  "off as an argument will disable the tool. The strength parameter must be between 0 and " ++
  "1 (default) and controls how fast the player will move.\n\n**Example:** ```absmov 90 " ++
  "0.5```"

def moveText : String :=
  "**Syntax:** ```move <direction> [scale]```\n\nControls the movement analog. Can accept " ++
  "1-2 direction parameters, as well as word-based parameters.\n\n**Example:** ```move " ++
  "forward left```"

def strafeText : String :=
  "**Syntax:** ```strafe [parameters]```\n\nThe strafe tool will adjust player input to " ++
  "get a different kind of strafing depending on parameters.\n\n**Example:** ```strafe " ++
  "299.999ups left veccam```"

def decelText : String :=
  "**Syntax:** ```decel <speed>```\n\nThe decelaration tool will slow down as quickly as " ++
  "possible to the given speed.\n\n**Example:** ```decel 100```"

def easingText : String :=
  "Specifies which algorithm to use for interpolation. Options are `cubic`, " ++
  "`exp`/`exponential`, `linear` or `sin`/`sine`. If omitted, `linear` is used."

def duckingText : String :=
  "Enables ```autojump``` while also ducking. Ducking slightly increases your jump height."

def vecText : String :=
  "Enables vectorial strafing (movement analog is adjusted to get desired movement " ++
  "direction). (default)"

def angText : String :=
  "Enables angular strafing (view analog is adjusted to get desired movement direction). " ++
  "This isn't particularly recommended as it doesn't look appealing, however it is the " ++
  "only effective strafing type while on velocity gel."

def veccamText : String :=
  "Enables special vectorial strafing that rotates you towards your current moving " ++
  "direction."

def maxText : String :=
  "Makes autostrafer aim for the greatest acceleration. (default)"

def keepText : String :=
  "Makes autostrafer maintain the current velocity."

def forwardText : String :=
  "Autostrafer will try to strafe in a straight line, towards the current view angle. " ++
  "(default)"

def forwardvelText : String :=
  "Autostrafer will try to strafe in a straight line, towards the current velocity angle."

def leftText : String :=
  "Autostrafer will try to strafe left."

def rightText : String :=
  "Autostrafer will try to strafe right."

def nopitchlockText : String :=
  "Make the autostrafer not clamp the pitch. The autostrafer will always clamp your pitch " ++
  "angle (up and down) between -30 and 30 when midair, as it gives the fastest possible " ++
  "acceleration (forward movement is being scaled by a cosine of that angle while being " ++
  "airborne). This argument will tell the autostrafer that you wish to enable sub-optimal " ++
  "strafing (this is useful when you need to hit a shot while strafing for example)."

def letspeedlockText : String :=
  "Let the autostrafer speedlock. This option only exists from version 4 onwards and " ++
  "mimics old behavior."

end TasScript.Catalogue
