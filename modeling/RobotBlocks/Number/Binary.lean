/-!
# Doubles as integers times powers of two

A finite double is an integer `mantissa` times a power of two. `Binary.ofFloat` takes a double
apart into that exact form and `Binary.toFloat` puts one together, so that every question about
the exact value of a double (is it whole, which integer does it truncate to, what is left of it
after whole turns) is answered with natural numbers and never with rounded arithmetic.
-/

namespace RobotBlocks

/-- The power of two with the given exponent. -/
def powerOfTwo (n : Nat) : Nat := Nat.pow 2 n

/-- The exact value of a double. -/
inductive Binary
  /-- Not a number. -/
  | nan
  /-- An infinity, with its sign. -/
  | infinite (negative : Bool)
  /-- The value `mantissa * 2 ^ exponent`, negated if `negative`; zero keeps its sign. -/
  | finite (negative : Bool) (mantissa : Nat) (exponent : Int)
  deriving DecidableEq, Repr

namespace Binary

/-- Significant bits of a double, the leading one included. -/
def precision : Nat := 53

/-- The weight of the leading bit in a mantissa of full precision. -/
def leadingBit : Nat := powerOfTwo 52

/-- The weight of the bit that holds the sign. -/
def signBit : Nat := powerOfTwo 63

/-- The exponent of the smallest positive double. -/
def leastExponent : Int := -1074

/-- The exact value of a double, read off its bits. -/
def ofFloat (x : Float) : Binary :=
  let bits := x.toBits.toNat
  let negative := bits / signBit % 2 == 1
  let field := bits / leadingBit % 2048
  let fraction := bits % leadingBit
  if field == 2047 then
    if fraction == 0 then .infinite negative else .nan
  else if field == 0 then .finite negative fraction leastExponent
  else .finite negative (leadingBit + fraction) (Int.ofNat field - 1075)

/-- The double with the given sign and bits below the sign. -/
def signed (negative : Bool) (bits : Nat) : Float :=
  Float.ofBits (UInt64.ofNat (if negative then signBit + bits else bits))

/-- The double nearest to zero from `mantissa * 2 ^ exponent`; exact whenever that value is a
double. -/
def compose (negative : Bool) (mantissa : Nat) (exponent : Int) : Float :=
  if mantissa == 0 then signed negative 0
  else
    let length : Int := Int.ofNat (mantissa.log2 + 1)
    let target := max (exponent + length - Int.ofNat precision) leastExponent
    let shift := exponent - target
    let scaled :=
      if 0 ≤ shift then mantissa * powerOfTwo shift.toNat else mantissa / powerOfTwo (-shift).toNat
    if target > 971 then signed negative (2047 * leadingBit)
    else if scaled < leadingBit then signed negative scaled
    else signed negative ((target + 1075).toNat * leadingBit + (scaled - leadingBit))

/-- The double with this exact value. -/
def toFloat : Binary → Float
  | .nan => Float.ofBits (UInt64.ofNat (2047 * leadingBit + leadingBit / 2))
  | .infinite negative => signed negative (2047 * leadingBit)
  | .finite negative mantissa exponent => compose negative mantissa exponent

/-- Whether the value is a whole number. -/
def isWhole : Binary → Bool
  | .finite _ mantissa exponent => mantissa % powerOfTwo (-exponent).toNat == 0
  | _ => false

/-- The integer left when the digits behind the point are dropped; none if not finite. -/
def truncate? : Binary → Option Int
  | .finite negative mantissa exponent =>
    let size := mantissa * powerOfTwo exponent.toNat / powerOfTwo (-exponent).toNat
    some (if negative then -Int.ofNat size else Int.ofNat size)
  | _ => none

/-- What is left of `x` after taking away whole multiples of `y`, rounding the count towards
zero: it keeps the sign of `x`. -/
def remainder : Binary → Binary → Binary
  | .finite negative m e, .finite _ n f =>
    if n == 0 then .nan
    else
      let low := min e f
      .finite negative (m * powerOfTwo (e - low).toNat % (n * powerOfTwo (f - low).toNat)) low
  | .finite negative m e, .infinite _ => .finite negative m e
  | _, _ => .nan

end Binary

/-- The positive infinity. -/
def Float.infinity : Float := Binary.toFloat (.infinite false)

/-- Not a number. -/
def Float.undefined : Float := Binary.toFloat .nan

/-- What is left of `x` after taking away a whole number of periods, rounding the count down; for
a positive period it lies in `[0, period]`, a zero keeping the sign of the period. -/
def Float.modulo (x period : Float) : Float :=
  let rest := (Binary.remainder (Binary.ofFloat x) (Binary.ofFloat period)).toFloat
  if rest == 0.0 then (if period < 0.0 then -0.0 else 0.0)
  else if (period < 0.0) != (rest < 0.0) then rest + period
  else rest

end RobotBlocks
