import RobotBlocks.Number.Decimal

/-!
# Quotients of integers

The double nearest to the quotient of two integers of any size, a tie going to the even mantissa. It
is computed from the exact quotient: dividing the doubles next to the two integers would round three
times.
-/

namespace RobotBlocks

namespace Quotient

/-- The fraction divided by a power of two. -/
def scale (numerator denominator : Nat) (exponent : Int) : Nat × Nat :=
  (numerator * powerOfTwo (-exponent).toNat, denominator * powerOfTwo exponent.toNat)

/-- The exponent of the double nearest to a positive fraction: the one that leaves a mantissa of
full precision, as far as exponents go down. -/
def exponentOf (numerator denominator : Nat) : Int :=
  let guess := Int.ofNat numerator.log2 - Int.ofNat denominator.log2 - Int.ofNat Binary.precision
  let (n, d) := scale numerator denominator guess
  max (if 2 * Binary.leadingBit ≤ n / d then guess + 1 else guess) Binary.leastExponent

/-- The double nearest to a fraction. -/
def round (negative : Bool) (numerator denominator : Nat) : Float :=
  let exponent := exponentOf numerator denominator
  let (n, d) := scale numerator denominator exponent
  Binary.compose negative (roundQuotient n d) exponent

end Quotient

/-- The double nearest to the quotient of an integer and a positive integer. -/
def Float.ofQuotient (numerator : Int) (denominator : Nat) : Float :=
  Quotient.round (decide (numerator < 0)) numerator.natAbs denominator

end RobotBlocks
