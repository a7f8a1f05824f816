import RobotBlocks.Motion.Geometry

/-!
# Boxes and obstacles

Boxes whose sides are parallel to the axes, given by their least and greatest corners, and the
obstacles of a scene, which are boxes given by centre and size.
-/

namespace RobotBlocks

/-- A box by two opposite corners. -/
structure Box (R : Type) where
  least : Point R
  greatest : Point R
  deriving DecidableEq

/-- A box that stands in the way. -/
structure Obstacle (R : Type) where
  /-- The centre. -/
  position : Point R
  /-- The full extents. -/
  size : Point R
  deriving DecidableEq

namespace Box

variable {R : Type} [Scalar R]

/-- The box with the given centre and extents. -/
def ofCenter (center size : Point R) : Box R :=
  let half (extent : R) : R := extent / Scalar.ofNat 2
  ⟨⟨center.x - half size.x, center.y - half size.y, center.z - half size.z⟩,
   ⟨center.x + half size.x, center.y + half size.y, center.z + half size.z⟩⟩

/-- Whether two boxes meet; boxes that touch do. -/
def intersects (a b : Box R) : Bool :=
  decide (a.least.x ≤ b.greatest.x) && decide (b.least.x ≤ a.greatest.x) &&
    decide (a.least.y ≤ b.greatest.y) && decide (b.least.y ≤ a.greatest.y) &&
    decide (a.least.z ≤ b.greatest.z) && decide (b.least.z ≤ a.greatest.z)

/-- Whether a point lies in the box, its faces included. -/
def contains (b : Box R) (p : Point R) : Bool :=
  decide (b.least.x ≤ p.x) && decide (p.x ≤ b.greatest.x) &&
    decide (b.least.y ≤ p.y) && decide (p.y ≤ b.greatest.y) &&
    decide (b.least.z ≤ p.z) && decide (p.z ≤ b.greatest.z)

end Box

namespace Obstacle

/-- The box that the obstacle fills. -/
def bounds {R : Type} [Scalar R] (o : Obstacle R) : Box R := .ofCenter o.position o.size

/-- The same obstacle in other numbers. -/
def map {R S : Type} (f : R → S) (o : Obstacle R) : Obstacle S :=
  ⟨o.position.map f, o.size.map f⟩

/-- The size of an obstacle that states none. -/
def defaultSize : Data := .record [("x", .integer 1), ("y", .integer 1), ("z", .integer 1)]

/-- The obstacle that a raw record describes. -/
def ofData (value : Data) : Except Fault (Obstacle Float) :=
  match value with
  | .record fields => do
    let position ← Point.ofData ((Data.field? fields "position").getD (.record []))
    let size ← Point.ofData ((Data.field? fields "size").getD defaultSize)
    return ⟨position, size⟩
  | value => .error (.lacks value.kindName "get")

end Obstacle

end RobotBlocks
