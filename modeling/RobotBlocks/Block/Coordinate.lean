import RobotBlocks.Fault

/-!
# Coordinates of blocks

Where a block stands along one axis. A coordinate is stated as a number or as the text of one, and
any other value counts as zero; only an integer beyond the range of doubles is refused.

The undefined number needs care, since it is neither less than any number nor equal to one. Stated
as a number it is still one and the same value wherever it occurs, so blocks at it stand at the same
place (`Coordinate.agrees`). A text that spells it gives each block an undefined place of its own.
-/

namespace RobotBlocks

/-- Where a block stands along one axis. -/
inductive Coordinate
  /-- At a number. -/
  | at (x : Float)
  /-- At an undefined place that it shares with no other block. -/
  | lost
  deriving DecidableEq

namespace Coordinate

/-- The number of a coordinate. -/
def value : Coordinate → Float
  | .at x => x
  | .lost => Float.undefined

/-- Whether two blocks stand at the same place. -/
def agrees : Coordinate → Coordinate → Bool
  | .at x, .at y => x == y || (x.isNaN && y.isNaN)
  | _, _ => false

/-- Whether a block at the first coordinate stands before one at the second. -/
def isLess (a b : Coordinate) : Bool := decide (a.value < b.value)

/-- The coordinate that a raw value stands for: zero if it is no number. -/
def ofData (value : Data) : Except Fault Coordinate :=
  match value with
  | .real x => .ok (.at x)
  | .flag _ => .ok (.at 0.0)
  | value =>
    match value.toNumber with
    | .ok x => .ok (if x.isNaN then .lost else .at x)
    | .error .integerTooLarge => .error .integerTooLarge
    | .error _ => .ok (.at 0.0)

/-- The raw value that states the coordinate. The text "nan" stands for the undefined number of a
lost place: a block saves this as a number, but as one that it shares with no other block, and an
undefined number among raw values is one and the same. -/
def toData : Coordinate → Data
  | .at x => .real x
  | .lost => .text "nan"

end Coordinate

end RobotBlocks
