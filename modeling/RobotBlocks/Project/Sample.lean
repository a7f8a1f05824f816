import RobotBlocks.Data

/-!
# The sample project

The project that is open before any other: the robot drives a square beside two walls.
-/

namespace RobotBlocks

namespace Sample

/-- A block of the sample. -/
def block (id type category : String) (x y : Int) (inputs : Fields) (children : List Text) :
    Data :=
  let place : Fields :=
    [("id", .text id), ("type", .text type), ("category", .text category), ("x", .integer x),
     ("y", .integer y)]
  let stated : Fields := if inputs.isEmpty then [] else [("inputs", .record inputs)]
  let claimed : Fields :=
    if children.isEmpty then [] else [("children", .list (children.map .text))]
  .record (place ++ stated ++ claimed)

/-- Three coordinates. -/
def coordinates (x y z : Data) : Data := .record [("x", x), ("y", y), ("z", z)]

/-- A wall at the given place of the floor. -/
def wall (x z : Int) : Data :=
  .record [("position", coordinates (.integer x) (.real 0.5) (.integer z)),
    ("size", coordinates (.integer 1) (.integer 1) (.integer 4))]

/-- The sample project. -/
def project : Data :=
  .record
    [("agent", .text "Robot"),
     ("blocks", .list
      [block "start" "onStart" "events" 40 20 [] ["move"],
       block "move" "moveForward" "motion" 40 60 [("steps", .integer 30)] ["loop"],
       block "loop" "repeat" "control" 40 100 [("times", .integer 4)] ["turn", "step"],
       block "turn" "turnRight" "motion" 80 140 [("degrees", .integer 90)] [],
       block "step" "moveForward" "motion" 80 180 [("steps", .integer 20)] []]),
     ("obstacles", .list [wall 3 2, wall 7 (-2)])]

end Sample

end RobotBlocks
