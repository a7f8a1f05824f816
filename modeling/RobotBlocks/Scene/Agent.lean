import RobotBlocks.Data.Comparison
import RobotBlocks.Scene.Box

/-!
# The size of the agent

For collisions an agent is a box without a heading: its footprint is a square with the longer of
width and depth as its side, and it reaches upwards from its position by its height.

A size can also come as a raw value. Width and depth are needed at once, but the height is kept as
it was given and only has to be a number when a collision is looked for.
-/

namespace RobotBlocks

/-- The agent as collisions see it. -/
structure Footprint (R : Type) where
  /-- Half the side of the square. -/
  half : R
  height : R
  deriving DecidableEq

/-- A height, as a number or as it was given. -/
inductive Height (R : Type)
  | known (value : R)
  | given (raw : Data)

/-- The size of an agent. -/
structure AgentSize (R : Type) where
  /-- Half the side of the footprint. -/
  half : R
  height : Height R

namespace AgentSize

variable {R : Type} [Scalar R]

/-- The size of an agent with the given width, height and depth. -/
def ofNumbers (width height depth : R) : AgentSize R :=
  ⟨Scalar.max width depth / Scalar.ofNat 2, .known height⟩

/-- The size of an agent that consists of these parts, which must be three. -/
def ofList (parts : List R) : Except Fault (AgentSize R) :=
  match parts with
  | [width, height, depth] => .ok (ofNumbers width height depth)
  | _ => .error (if parts.length < 3 then .tooFewParts parts.length else .tooManyParts)

/-- The parts of a raw value. -/
def partsOf (value : Data) : Except Fault (List Data) :=
  match value.parts? with
  | some parts => .ok parts
  | none => .error (.noParts value.kindName)

/-- Half of a raw number. -/
def halfOf (value : Data) : Except Fault Float :=
  match value with
  | .real x => .ok (x / 2.0)
  | value =>
    match value.integer? with
    | some n => (Float.ofInt? n).map (· / 2.0)
    | none => .error (.operands "/" value.kindName "float")

/-- The size of an agent that a raw value describes. -/
def ofData (value : Data) : Except Fault (AgentSize R) := do
  match ← partsOf value with
  | [width, height, depth] =>
    let longer := if ← width.isLess depth then depth else width
    return ⟨Scalar.ofFloat (← halfOf longer), .given height⟩
  | parts => throw (if parts.length < 3 then .tooFewParts parts.length else .tooManyParts)

/-- The height as a number, needed for the given operation. -/
def heightFor (operation : String) (s : AgentSize R) : Except Fault R :=
  match s.height with
  | .known value => .ok value
  | .given (.real x) => .ok (Scalar.ofFloat x)
  | .given raw =>
    match raw.integer? with
    | some n => (Float.ofInt? n).map Scalar.ofFloat
    | none => .error (.operands operation "float" raw.kindName)

/-- The footprint, with the height needed for the given operation. -/
def footprint (operation : String) (s : AgentSize R) : Except Fault (Footprint R) :=
  (s.heightFor operation).map fun height => ⟨s.half, height⟩

end AgentSize

/-- The box of an agent at a position. -/
def Footprint.bounds {R : Type} [Scalar R] (f : Footprint R) (p : Point R) : Box R :=
  ⟨⟨p.x - f.half, p.y, p.z - f.half⟩, ⟨p.x + f.half, p.y + f.height, p.z + f.half⟩⟩

end RobotBlocks
