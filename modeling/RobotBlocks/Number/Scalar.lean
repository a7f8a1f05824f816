import RobotBlocks.Number.Hypotenuse

/-!
# The numbers of the simulation

Durations, distances, headings and coordinates are written once, over any type of numbers with the
operations below. The simulation runs on doubles (`instScalarFloat`); read over an ordered field
the same definitions are the exact arithmetic that the theory of motion is about. Nothing is
assumed of the operations here: `sin` and `cos` may refuse an argument, comparisons may all fail on
a number that is undefined, and `ofFloat` brings in the numbers that a program or a project states.
-/

namespace RobotBlocks

/-- A type of numbers to simulate with. -/
class Scalar (R : Type) extends Add R, Sub R, Mul R, Div R, Neg R, LT R, LE R, BEq R where
  /-- The order can be tested. -/
  decideLt : ∀ a b : R, Decidable (a < b)
  /-- The weak order can be tested. -/
  decideLe : ∀ a b : R, Decidable (a ≤ b)
  /-- The natural numbers among the numbers. -/
  ofNat : Nat → R
  /-- The number that a double stands for. -/
  ofFloat : Float → R
  /-- The double that stands for the number in texts. -/
  toFloat : R → Float
  /-- Half the circumference of the unit circle. -/
  pi : R
  /-- The third power. -/
  cube : R → R
  /-- The length of the displacement with the given sides. -/
  hypotenuse : R → R → R
  /-- The sine of an angle in radians; none for an angle that has none. -/
  sin : R → Option R
  /-- The cosine of an angle in radians; none for an angle that has none. -/
  cos : R → Option R

namespace Scalar

variable {R : Type} [Scalar R]

instance instDecidableLt (a b : R) : Decidable (a < b) := decideLt a b

instance instDecidableLe (a b : R) : Decidable (a ≤ b) := decideLe a b

/-- The fraction of two natural numbers. -/
def ratio (numerator denominator : Nat) : R := ofNat numerator / ofNat denominator

/-- Whether the number is undefined: it then differs even from itself. -/
def isUndefined (a : R) : Bool := !(a == a)

/-- The first number, unless the second is greater. -/
def max (a b : R) : R := if a < b then b else a

/-- The first number, unless the second is less. -/
def min (a b : R) : R := if b < a then b else a

end Scalar

/-- Doubles, with the power, sine and cosine of the machine's library. A zero is its own third power,
and an infinite angle has neither sine nor cosine. -/
instance instScalarFloat : Scalar Float where
  decideLt := Float.decLt
  decideLe := Float.decLe
  ofNat := Float.ofNat
  ofFloat x := x
  toFloat x := x
  pi := 3.141592653589793
  cube x := if x == 0.0 then x else x.pow 3.0
  hypotenuse := RobotBlocks.hypotenuse
  sin x := if x.isInf then none else some x.sin
  cos x := if x.isInf then none else some x.cos

end RobotBlocks
