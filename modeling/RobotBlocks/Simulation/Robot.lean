import RobotBlocks.Motion.Geometry

/-!
# The state of the robot

Where the robot is, how it is turned, whether it moves and how fast it runs: what observers are
shown whenever it changes.
-/

namespace RobotBlocks

/-- The robot at one moment. -/
structure Robot (R : Type) where
  position : Point R
  /-- In radians. -/
  rotation : Point R
  moving : Bool
  /-- The speed of its commands, one being the normal speed. -/
  speed : R
  /-- How often it has been put to another place since it stood at its initial one. -/
  placings : Nat := 0
  deriving DecidableEq

namespace Robot

/-- The rotation about the vertical axis. -/
def heading {R : Type} (r : Robot R) : R := r.rotation.y

/-- The robot at another place. -/
def placeAt {R : Type} (r : Robot R) (p : Point R) : Robot R :=
  { r with position := p, placings := r.placings + 1 }

/-- Whether two numbers that tell where the robot is agree. An undefined number differs from all
others, but as long as the robot is not put to another place it is still where it was. -/
def agree {R : Type} [Scalar R] (a b : Robot R) (x y : R) : Bool :=
  x == y || (Scalar.isUndefined x && Scalar.isUndefined y && a.placings == b.placings)

/-- Whether the robot stands on the same spot of the floor at two moments. -/
def standsLike {R : Type} [Scalar R] (a b : Robot R) : Bool :=
  agree a b a.position.x b.position.x && agree a b a.position.z b.position.z

end Robot

end RobotBlocks
