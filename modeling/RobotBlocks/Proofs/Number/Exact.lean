import Mathlib.Algebra.Order.Field.Basic
import Mathlib.Data.Rat.Sqrt
import Mathlib.Tactic.Linarith
import Mathlib.Tactic.Ring
import RobotBlocks.Number.Scalar

/-!
# Exact numbers

The simulation read over an ordered field: sums, products, quotients and comparisons are those of the
field. The rest is not determined by a field and is taken as given (`Measures`): the number that a
double stands for, half the circumference, lengths, sines and cosines may be any functions at all.

The lemmas say that the operations of `Scalar` then are those of the field. The rational numbers are the
example in which runs can be computed.
-/

namespace RobotBlocks

/-- What the simulation needs of numbers besides the operations of a field. -/
class Measures (K : Type) where
  ofFloat : Float → K
  toFloat : K → Float
  pi : K
  hypotenuse : K → K → K
  sin : K → Option K
  cos : K → Option K

variable {K : Type} [Field K] [LinearOrder K] [Measures K]

/-- The elements of an ordered field as numbers of the simulation. -/
instance instScalarExact : Scalar K where
  beq a b := decide (a = b)
  decideLt := inferInstance
  decideLe := inferInstance
  ofNat n := n
  ofFloat := Measures.ofFloat
  toFloat := Measures.toFloat
  pi := Measures.pi
  cube x := x ^ 3
  hypotenuse := Measures.hypotenuse
  sin := Measures.sin
  cos := Measures.cos

namespace Scalar

/-- The tests of the order mean the order, for numbers of any kind. -/
theorem decide_le_iff {R : Type} [Scalar R] {a b : R} : decide (a ≤ b) = true ↔ a ≤ b :=
  decide_eq_true_iff

@[simp] theorem ofNat_eq_cast (n : ℕ) : (Scalar.ofNat n : K) = n := rfl

@[simp] theorem max_eq (a b : K) : Scalar.max a b = Max.max a b := by
  unfold Scalar.max
  split
  next h => exact (max_eq_right (le_of_lt h)).symm
  next h => exact (max_eq_left (not_lt.1 h)).symm

@[simp] theorem min_eq (a b : K) : Scalar.min a b = Min.min a b := by
  unfold Scalar.min
  split
  next h => exact (min_eq_right (le_of_lt h)).symm
  next h => exact (min_eq_left (not_lt.1 h)).symm

@[simp] theorem beq_iff (a b : K) : (a == b) = true ↔ a = b := decide_eq_true_iff

@[simp] theorem isUndefined_eq (a : K) : Scalar.isUndefined a = false := by
  simp [Scalar.isUndefined]

end Scalar


/-- Rational numbers. No angle but zero has a rational sine; a length that is not rational is replaced
by a rational one. -/
instance instMeasuresRat : Measures ℚ where
  ofFloat x :=
    match Binary.ofFloat x with
    | .finite negative mantissa exponent =>
      (if negative then -1 else 1) * mantissa * (2 : ℚ) ^ exponent
    | _ => 0
  toFloat x := Float.ofInt x.num / Float.ofNat x.den
  pi := 3141592653589793 / 10 ^ 15
  hypotenuse a b := Rat.sqrt (a * a + b * b)
  sin x := if x = 0 then some 0 else none
  cos x := if x = 0 then some 1 else none

end RobotBlocks
