import RobotBlocks.Command
import RobotBlocks.Fault

/-!
# Configurations

The size of an agent, the timing of its commands, the bounds of its speed and the limits on the
programs that it runs; `Config.presets` are the agents to choose from.
-/

namespace RobotBlocks

/-- Configuration of one agent. -/
structure Config (R : Type) where
  name : String
  /-- Width, height and depth. -/
  agentSize : List R
  /-- The height at which the agent rests. -/
  groundHeight : R
  /-- The heading, in radians, in which the agent starts. -/
  initialHeading : R
  /-- Milliseconds that a move takes at speed one. -/
  moveDuration : R
  /-- Milliseconds that a turn takes at speed one. -/
  turnDuration : R
  /-- Milliseconds in a second of waiting. -/
  waitPerSecond : R
  /-- Units of the world in a step. -/
  unitsPerStep : R
  minSpeed : R
  maxSpeed : R
  defaultSpeed : R
  /-- What replaces an input that is missing, by the name of the quantity. -/
  defaultInputs : List (String × Float)
  /-- The most rounds of one loop. -/
  maxRepeat : Int
  /-- The most blocks visited in one compilation, over all loops. -/
  maxVisits : Int
  /-- Milliseconds between two ticks of the host. -/
  tickInterval : Int
  deriving DecidableEq

namespace Config

open Scalar (ratio)

variable {R : Type} [Scalar R]

/-- The box robot, with the values that the other agents share. -/
def robot : Config R where
  name := "Robot"
  agentSize := [ratio 1 1, ratio 1 2, ratio 3 2]
  groundHeight := Scalar.ofNat 0
  initialHeading := Scalar.ofNat 0
  moveDuration := Scalar.ofNat 1000
  turnDuration := Scalar.ofNat 800
  waitPerSecond := Scalar.ofNat 1000
  unitsPerStep := ratio 1 10
  minSpeed := ratio 1 10
  maxSpeed := Scalar.ofNat 3
  defaultSpeed := Scalar.ofNat 1
  defaultInputs := [("distance", 10.0), ("angle", 90.0), ("seconds", 1.0), ("times", 10.0)]
  maxRepeat := 1000
  maxVisits := 20000
  tickInterval := 16

/-- The agents to choose from. The fish swims above the floor; the golem has longer strides. -/
def presets : List (Config R) :=
  [robot,
   { (robot : Config R) with
      name := "Fennec", agentSize := [ratio 4 5, ratio 9 10, ratio 6 5] },
   { (robot : Config R) with
      name := "Fish", agentSize := [ratio 1 2, ratio 1 2, ratio 1 1]
      groundHeight := ratio 1 2 },
   { (robot : Config R) with
      name := "Mini Groot", agentSize := [ratio 7 10, ratio 7 5, ratio 7 10] },
   { (robot : Config R) with
      name := "Lava Golem", agentSize := [ratio 7 5, ratio 2 1, ratio 6 5]
      moveDuration := Scalar.ofNat 1400, turnDuration := Scalar.ofNat 1100 },
   { (robot : Config R) with
      name := "Astronaut", agentSize := [ratio 4 5, ratio 9 5, ratio 4 5] }]

/-- The names of the agents. -/
def agentNames : List String := ["Robot", "Fennec", "Fish", "Mini Groot", "Lava Golem", "Astronaut"]

/-- The agent of a name, in any letter case and with white space at the ends; the box robot if
nobody has the name. -/
def ofName (name : Text) : Config R :=
  (presets.find? fun c => Text.lower c.name == name.trim.lower).getD robot

/-- The agent that a raw value names. A value that does not count as given is no name at all, and
any other value but a text cannot be one. -/
def ofData (name : Data) : Except Fault (Config R) :=
  match name with
  | .text name => .ok (ofName name)
  | name => if name.isGiven then .error (.lacks name.kindName "strip") else .ok (ofName "")

/-- The speed brought between the bounds; the default speed if it is undefined. The lower bound
decides where the bounds contradict each other. -/
def clampSpeed (c : Config R) (speed : R) : R :=
  if Scalar.isUndefined speed then c.defaultSpeed
  else Scalar.max c.minSpeed (Scalar.min c.maxSpeed speed)

/-- The default of a quantity. -/
def default? (c : Config R) (name : String) : Option Float :=
  (c.defaultInputs.find? fun d => d.1 == name).map (·.2)

end Config

end RobotBlocks
