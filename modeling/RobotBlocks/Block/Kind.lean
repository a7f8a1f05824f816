import RobotBlocks.Text.Character

/-!
# Kinds of blocks

What a block does, resolved from the type name that the editor gave it. A type name may be spelled
with any letter case, underscores and hyphens, and some kinds have several names.
-/

namespace RobotBlocks

/-- What a block does. -/
inductive Kind
  /-- Begins the program. -/
  | startEvent
  | moveForward
  | moveBackward
  | turnLeft
  | turnRight
  | wait
  /-- Runs its body a number of times. -/
  | loop
  /-- Runs its body if its guard holds. -/
  | conditional
  /-- Asks a sensor. -/
  | sensorQuery
  /-- A type name that nobody knows. -/
  | unknown
  deriving DecidableEq, Repr

namespace Kind

/-- The name of a kind. -/
def name : Kind → String
  | startEvent => "start_event"
  | moveForward => "move_forward"
  | moveBackward => "move_backward"
  | turnLeft => "turn_left"
  | turnRight => "turn_right"
  | wait => "wait"
  | loop => "repeat"
  | conditional => "conditional"
  | sensorQuery => "sensor_query"
  | unknown => "unknown"

/-- The type names, in their normal spelling. -/
def aliases : List (String × Kind) :=
  [("onstart", startEvent), ("whenflagclicked", startEvent), ("start", startEvent),
   ("startevent", startEvent),
   ("moveforward", moveForward), ("movebackward", moveBackward),
   ("turnleft", turnLeft), ("turnright", turnRight), ("wait", wait),
   ("repeat", loop), ("if", conditional), ("conditional", conditional),
   ("touching", sensorQuery), ("distance", sensorQuery), ("sensorquery", sensorQuery)]

/-- The normal spelling of a type name: in lower case, without white space at the ends,
underscores and hyphens. -/
def normalize (typeName : Text) : Text :=
  typeName.trim.lower.filter fun p => p != .char '_' && p != .char '-'

/-- The kind that a type name stands for. -/
def ofTypeName (typeName : Text) : Kind :=
  let key := normalize typeName
  ((aliases.find? fun a => (a.1 : Text) == key).map (·.2)).getD unknown

/-- Whether blocks of the kind have a body. -/
def isContainer : Kind → Bool
  | loop | conditional => true
  | _ => false

end Kind

end RobotBlocks
