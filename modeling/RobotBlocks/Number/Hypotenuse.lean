import RobotBlocks.Number.Binary

/-!
# The length of a displacement

`hypotenuse x y` is the square root of `x ^ 2 + y ^ 2`, computed so that neither square overflows
and the result is nearly always the double nearest to the exact length: both sides are scaled by a
power of two, squared exactly in two halves each, summed with the rounding errors kept apart, and
the root is corrected once by the residue it leaves.
-/

namespace RobotBlocks

namespace Hypotenuse

/-- A sum of doubles with the errors of its roundings in three further terms. -/
structure Sum where
  total : Float
  first : Float
  second : Float
  third : Float

/-- The sum at its start: the total begins at one, so that every term is smaller than it. -/
def Sum.start : Sum := ⟨1.0, 0.0, 0.0, 0.0⟩

/-- What the sum has gathered since its start. -/
def Sum.value (s : Sum) : Float := s.total - 1.0 + (s.first + s.second + s.third)

/-- The upper and the lower half of the bits of a double: they add up to it, and products of
halves are exact. -/
def halves (x : Float) : Float × Float :=
  let t := x * 134217729.0
  let high := t - (t - x)
  (high, x - high)

/-- Adds the square of a scaled side. -/
def addSquare (s : Sum) (x : Float) : Sum :=
  let (high, low) := halves x
  let square := high * high
  let total₁ := s.total + square
  let first := s.first + ((s.total - total₁) + square)
  let cross := 2.0 * high * low
  let total₂ := total₁ + cross
  ⟨total₂, first, s.second + ((total₁ - total₂) + cross), s.third + low * low⟩

/-- Takes the square of the root away again; what is left is the residue of the root. -/
def subSquare (s : Sum) (x : Float) : Sum :=
  let (high, low) := halves x
  let square := -high * high
  let total₁ := s.total + square
  let first := s.first + ((s.total - total₁) + square)
  let cross := -2.0 * high * low
  let total₂ := total₁ + cross
  let second := s.second + ((total₁ - total₂) + cross)
  let rest := -low * low
  let total₃ := total₂ + rest
  ⟨total₃, first, second, s.third + ((total₂ - total₃) + rest)⟩

/-- The exponent `e` for which a positive double lies in `[2 ^ (e - 1), 2 ^ e)`. -/
def binaryExponent (x : Float) : Int :=
  match Binary.ofFloat x with
  | .finite _ mantissa exponent => exponent + Int.ofNat (mantissa.log2 + 1)
  | _ => 0

/-- The length of a displacement whose longer side is `longer`, a finite number. -/
def ofSides (x y longer : Float) : Float :=
  let exponent := binaryExponent longer
  if -1023 ≤ exponent then
    let scale := Binary.compose false 1 (-exponent)
    let squares := addSquare (addSquare Sum.start (x * scale)) (y * scale)
    let root := squares.value.sqrt
    (root + (subSquare squares root).value / (2.0 * root)) / scale
  else
    let step (s : Float × Float) (side : Float) : Float × Float :=
      let part := side / longer * (side / longer)
      let total := s.1 + part
      (total, s.2 + ((s.1 - total) + part))
    let (total, error) := step (step (1.0, 0.0) x) y
    longer * (total - 1.0 + error).sqrt

end Hypotenuse

/-- The length of the displacement with the sides `x` and `y`. An infinite side makes it infinite
even if the other side is undefined. -/
def hypotenuse (x y : Float) : Float :=
  let x := x.abs
  let y := y.abs
  let longer := if 0.0 < x then x else 0.0
  let longer := if longer < y then y else longer
  if longer.isInf then longer
  else if x.isNaN || y.isNaN then Float.undefined
  else if longer == 0.0 then longer
  else Hypotenuse.ofSides x y longer

end RobotBlocks
