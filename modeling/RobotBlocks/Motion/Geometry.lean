import RobotBlocks.Fault
import RobotBlocks.Number.Scalar

/-!
# Points and angles

Positions, rotations and sizes, the easing of movements and the conversion of angles. A rotation is
in radians; the heading is the rotation about the vertical axis, zero facing along `z` and growing
towards `x`.
-/

namespace RobotBlocks

/-- Three coordinates. -/
structure Point (R : Type) where
  x : R
  y : R
  z : R
  deriving DecidableEq

namespace Point

/-- The same coordinates in other numbers. -/
def map {R S : Type} (f : R → S) (p : Point R) : Point S := ⟨f p.x, f p.y, f p.z⟩

/-- A coordinate of a raw record; zero if it is missing. -/
def coordinate (fields : Fields) (name : Text) : Except Fault Float :=
  ((Data.field? fields name).getD (.real 0.0)).toNumber

/-- The point that a raw record describes. -/
def ofData (value : Data) : Except Fault (Point Float) :=
  match value with
  | .record fields => do
    let x ← coordinate fields "x"
    let y ← coordinate fields "y"
    let z ← coordinate fields "z"
    return ⟨x, y, z⟩
  | value => .error (.lacks value.kindName "get")

end Point

section

variable {R : Type} [Scalar R]

/-- The number brought between two bounds, the lower one having the last word. -/
def clamp (value low high : R) : R := Scalar.max low (Scalar.min high value)

/-- The covered part of a movement at the given part of its time: slow at both ends, fast in the
middle. -/
def ease (t : R) : R :=
  let t := clamp t (Scalar.ofNat 0) (Scalar.ofNat 1)
  if t < Scalar.ratio 1 2 then Scalar.ofNat 4 * t * t * t
  else
    Scalar.ofNat 1 - Scalar.cube (-Scalar.ofNat 2 * t + Scalar.ofNat 2) / Scalar.ofNat 2

/-- The sine and the cosine of a heading, if it has them. -/
def direction? (heading : R) : Option (R × R) := do
  let sine ← Scalar.sin heading
  let cosine ← Scalar.cos heading
  return (sine, cosine)

/-- How far along `x` and `z` a distance leads in the direction of a heading. -/
def forwardOffset (heading distance : R) : Except Fault (R × R) :=
  match direction? heading with
  | some (sine, cosine) => .ok (distance * sine, distance * cosine)
  | none => .error .outsideDomain

/-- The radians of an angle in degrees. -/
def toRadians (degrees : R) : R := degrees * Scalar.pi / Scalar.ofNat 180

/-- The degrees of an angle in radians. -/
def toDegrees (radians : R) : R := radians * Scalar.ofNat 180 / Scalar.pi

end

/-- The angle with whole turns taken away, between half a turn either way. -/
def normalizeAngle (angle : Float) : Float :=
  let half : Float := Scalar.pi
  Float.modulo (angle + half) (2.0 * half) - half

end RobotBlocks
