import RobotBlocks.Number.Decimal
import RobotBlocks.Number.Scalar
import RobotBlocks.Text.Basic

/-!
# Commands

The primitive movements that a program is compiled to and that the executor animates. A command
carries what it asks for (steps, degrees or seconds), how long it takes at speed one, and the block
that it came from.
-/

namespace RobotBlocks

/-- The primitive movements. -/
inductive Movement
  | forward
  | backward
  | turnLeft
  | turnRight
  | wait
  deriving DecidableEq, Repr

namespace Movement

/-- The name of a movement. -/
def name : Movement → String
  | forward => "move_forward"
  | backward => "move_backward"
  | turnLeft => "turn_left"
  | turnRight => "turn_right"
  | wait => "wait"

/-- All movements, in the order in which they are counted. -/
def all : List Movement := [forward, backward, turnLeft, turnRight, wait]

/-- The movement of a name. -/
def ofName? (name : String) : Option Movement := all.find? fun m => m.name == name

/-- Whether the movement changes the position. -/
def isMove : Movement → Bool
  | forward | backward => true
  | _ => false

/-- Whether the movement changes the heading. -/
def isTurn : Movement → Bool
  | turnLeft | turnRight => true
  | _ => false

end Movement

/-- One movement with its amount. -/
structure Command (R : Type) where
  movement : Movement
  /-- Steps, degrees or seconds. -/
  value : R
  /-- Milliseconds at speed one. -/
  duration : R
  /-- The block that the command came from. -/
  source : Option Text
  deriving DecidableEq

/-- The movement with its amount in parentheses. -/
def Command.text {R : Type} [Scalar R] (c : Command R) : String :=
  c.movement.name ++ "(" ++ Float.generalText (Scalar.toFloat c.value) ++ ")"

end RobotBlocks
