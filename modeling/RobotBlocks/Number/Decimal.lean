import RobotBlocks.Number.Binary

/-!
# Decimal texts of doubles

Every text of a number is computed from the exact value of the double, in natural numbers:

* `Decimal.shortest` finds the fewest digits that read back to the same double, of two such
  decimals the nearer, of two equally near the even one; `Float.shortestText` writes them out,
  positionally when the leading digit stands between `10 ^ -4` and `10 ^ 15`.
* `roundQuotient` rounds a quotient to the nearest integer, a half to the even neighbour;
  `Float.fixedText` (a fixed number of places) and `Float.generalText` (six significant digits)
  are written from it.
-/

namespace RobotBlocks

/-- The number `digits * 10 ^ exponent`. -/
structure Decimal where
  digits : Nat
  exponent : Int
  deriving DecidableEq, Repr

/-- The power of ten with the given exponent. -/
def powerOfTen (n : Nat) : Nat := Nat.pow 10 n

/-- The decimal digits of a natural number, most significant first. -/
def digitChars (n : Nat) : List Char := Nat.toDigits 10 n

/-- The text of a natural number. -/
def natText (n : Nat) : String := String.ofList (digitChars n)

/-- The text of an integer. Its length has no limit here: an integer with more digits than could be
written is refused by the reader. -/
def intText (n : Int) : String :=
  if n < 0 then "-" ++ natText n.natAbs else natText n.natAbs

/-- The quotient rounded to the nearest integer, a half going to the even one. -/
def roundQuotient (numerator denominator : Nat) : Nat :=
  let whole := numerator / denominator
  let twice := 2 * (numerator % denominator)
  if twice < denominator then whole
  else if denominator < twice then whole + 1
  else whole + whole % 2

namespace Decimal

/-- The number `mantissa * 2 ^ exponent` as a fraction. -/
def fraction (mantissa : Nat) (exponent : Int) : Nat × Nat :=
  (mantissa * powerOfTwo exponent.toNat, powerOfTwo (-exponent).toNat)

/-- The number `e` with `10 ^ (e - 1) ≤ numerator / denominator < 10 ^ e`, for a positive
fraction. -/
def magnitude (numerator denominator : Nat) : Int :=
  let digits (n : Nat) : Int := Int.ofNat (digitChars n).length
  let gap := digits numerator - digits denominator
  if denominator * powerOfTen gap.toNat ≤ numerator * powerOfTen (-gap).toNat then gap + 1
  else gap

/-- Whether `digits * 10 ^ exponent` lies among the reals that round to the double
`mantissa * 2 ^ binaryExponent`: between the midpoints to its two neighbours, the midpoints
themselves included when the mantissa is even. Below a power of two the neighbour is half as far
away. -/
def readsBackTo (mantissa : Nat) (binaryExponent : Int) (candidate : Decimal) : Bool :=
  let (unit, denominator) := fraction 1 binaryExponent
  let below :=
    if mantissa == Binary.leadingBit && Binary.leastExponent < binaryExponent then 1 else 2
  let low := (4 * mantissa - below) * unit * powerOfTen (-candidate.exponent).toNat
  let high := (4 * mantissa + 2) * unit * powerOfTen (-candidate.exponent).toNat
  let value := candidate.digits * powerOfTen candidate.exponent.toNat * (4 * denominator)
  if mantissa % 2 == 0 then low ≤ value && value ≤ high else low < value && value < high

/-- The decimal with the given exponent that reads back to the double, if one of the two
neighbours of the double on that grid does; the nearer one if both do, the even one in a tie. -/
def onGrid? (mantissa : Nat) (binaryExponent exponent : Int) : Option Decimal :=
  let (numerator, denominator) := fraction mantissa binaryExponent
  let numerator := numerator * powerOfTen (-exponent).toNat
  let denominator := denominator * powerOfTen exponent.toNat
  let lower : Decimal := ⟨numerator / denominator, exponent⟩
  let upper : Decimal := ⟨numerator / denominator + 1, exponent⟩
  match readsBackTo mantissa binaryExponent lower, readsBackTo mantissa binaryExponent upper with
  | true, true => some ⟨roundQuotient numerator denominator, exponent⟩
  | true, false => some lower
  | false, true => some upper
  | false, false => none

/-- Without zeros at the end of the digits; `fuel` bounds their number. -/
def dropZeros : (fuel : Nat) → Decimal → Decimal
  | 0, d => d
  | fuel + 1, d =>
    if d.digits != 0 && d.digits % 10 == 0 then dropZeros fuel ⟨d.digits / 10, d.exponent + 1⟩
    else d

/-- The shortest decimal that reads back to the positive double `mantissa * 2 ^ exponent`: grids
of one, two, up to seventeen digits are tried in turn, and seventeen always suffice. -/
def shortest (mantissa : Nat) (exponent : Int) : Decimal :=
  let (numerator, denominator) := fraction mantissa exponent
  let top := magnitude numerator denominator
  match (List.range 17).findSome? fun n => onGrid? mantissa exponent (top - 1 - Int.ofNat n) with
  | some d => dropZeros 20 d
  | none => ⟨mantissa, exponent⟩

/-- The positive fraction rounded to `places` significant digits, with exactly that many digits
unless rounding carries into a further one, which is then dropped as a zero. -/
def significant (places numerator denominator : Nat) : Decimal :=
  let exponent := magnitude numerator denominator - Int.ofNat places
  let digits :=
    roundQuotient (numerator * powerOfTen (-exponent).toNat)
      (denominator * powerOfTen exponent.toNat)
  if digits == powerOfTen places then ⟨digits / 10, exponent + 1⟩ else ⟨digits, exponent⟩

/-- The power of ten of the leading digit. -/
def leading (d : Decimal) : Int :=
  d.exponent + Int.ofNat (digitChars d.digits).length - 1

/-- Digits around a point, with zeros filled in on either side; no point without digits behind
it. -/
def positional (d : Decimal) : String :=
  let digits := digitChars d.digits
  if 0 ≤ d.exponent then
    String.ofList (digits ++ List.replicate d.exponent.toNat '0')
  else
    let places := (-d.exponent).toNat
    let padded := List.replicate (places + 1 - digits.length) '0' ++ digits
    let whole := padded.take (padded.length - places)
    let behind := padded.drop (padded.length - places)
    String.ofList (whole ++ '.' :: behind)

/-- One digit, the others behind a point, and the exponent with a sign and at least two
digits. -/
def scientific (d : Decimal) : String :=
  let exponent := d.leading
  let power := digitChars exponent.natAbs
  let power := if power.length < 2 then '0' :: power else power
  let mark := if exponent < 0 then ['e', '-'] else ['e', '+']
  match digitChars d.digits with
  | [] => ""
  | [c] => String.ofList (c :: mark ++ power)
  | c :: rest => String.ofList (c :: '.' :: rest ++ mark ++ power)

end Decimal

/-- A minus sign in front, if asked for. -/
def withSign (negative : Bool) (text : String) : String :=
  if negative then "-" ++ text else text

/-- The shortest text that reads back to the same double: positional when the leading digit
stands between `10 ^ -4` and `10 ^ 15`, then always with a point, and scientific otherwise. -/
def Float.shortestText (x : Float) : String :=
  match Binary.ofFloat x with
  | .nan => "nan"
  | .infinite negative => withSign negative "inf"
  | .finite negative mantissa exponent =>
    withSign negative <|
      if mantissa == 0 then "0.0"
      else
        let d := Decimal.shortest mantissa exponent
        if -4 ≤ d.leading && d.leading < 16 then
          if 0 ≤ d.exponent then d.positional ++ ".0" else d.positional
        else d.scientific

/-- The text with six significant digits and no zeros behind the last of them, positional when
the leading digit stands between `10 ^ -4` and `10 ^ 5`. -/
def Float.generalText (x : Float) : String :=
  match Binary.ofFloat x with
  | .nan => "nan"
  | .infinite negative => withSign negative "inf"
  | .finite negative mantissa exponent =>
    withSign negative <|
      if mantissa == 0 then "0"
      else
        let (numerator, denominator) := Decimal.fraction mantissa exponent
        let d := Decimal.dropZeros 6 (Decimal.significant 6 numerator denominator)
        if -4 ≤ d.leading && d.leading < 6 then d.positional else d.scientific

/-- The text with a fixed number of places behind the point, a half rounded to the even
neighbour. -/
def Float.fixedText (places : Nat) (x : Float) : String :=
  match Binary.ofFloat x with
  | .nan => "nan"
  | .infinite negative => withSign negative "inf"
  | .finite negative mantissa exponent =>
    let (numerator, denominator) := Decimal.fraction mantissa exponent
    let digits := roundQuotient (numerator * powerOfTen places) denominator
    withSign negative (Decimal.positional ⟨digits, -Int.ofNat places⟩)

/-- The text moved to the right end of a field of the given width. -/
def padLeft (width : Nat) (text : String) : String :=
  String.ofList (List.replicate (width - text.length) ' ') ++ text

end RobotBlocks
