import RobotBlocks.Number.Decimal
import RobotBlocks.Text.Character

/-!
# Reading numbers

The double that a text stands for. White space around the number is dropped; the number is an
optional sign and then either an infinity or a not-a-number word in any letter case, or decimal
digits of any script with an optional point and exponent. An underscore may stand between two
digits. The value is rounded correctly, so a text beyond the range of doubles reads as an infinity
or a zero.
-/

namespace RobotBlocks

namespace Reading

/-- The piece as an ASCII character: digits of all scripts become ASCII digits, and a mark that no
number holds stands for everything else outside ASCII. -/
def plain (p : Piece) : Char :=
  let c := p.shown
  if c.toNat < 128 then c
  else match digitValue? c with
    | some d => Char.ofNat (48 + d)
    | none => '?'

/-- Drops the underscores that stand between two digits; none if one stands elsewhere. `before`
tells whether the character before was a digit. -/
def dropUnderscores : (before : Bool) → List Char → Option (List Char)
  | _, [] => some []
  | before, '_' :: rest =>
    match rest with
    | c :: _ => if before && c.isDigit then dropUnderscores false rest else none
    | [] => none
  | _, c :: rest => (dropUnderscores c.isDigit rest).map (c :: ·)

/-- The value of a row of ASCII digits. -/
def digitsValue (cs : List Char) : Nat :=
  cs.foldl (fun n c => 10 * n + (c.toNat - 48)) 0

/-- A sign, if there is one, and the rest; true for a minus. -/
def sign : List Char → Bool × List Char
  | '-' :: rest => (true, rest)
  | '+' :: rest => (false, rest)
  | cs => (false, cs)

/-- The exponent behind a number, which must end the text: none if it is no exponent. -/
def exponent? : List Char → Option Int
  | [] => some 0
  | c :: rest =>
    if c == 'e' || c == 'E' then
      let (negative, digits) := sign rest
      if digits.isEmpty || !digits.all Char.isDigit then none
      else
        let n : Int := Int.ofNat (digitsValue digits)
        some (if negative then -n else n)
    else none

/-- The double nearest to `digits * 10 ^ exponent`. Exponents far outside the range of doubles are
settled without computing the power. -/
def round (negative : Bool) (digits : Nat) (exponent : Int) : Float :=
  let size : Float :=
    if digits == 0 then 0.0
    else
      let top := exponent + Int.ofNat (digitChars digits).length
      if 400 < top then Float.infinity
      else if top < -400 then 0.0
      else Float.ofScientific digits (exponent < 0) exponent.natAbs
  if negative then -size else size

/-- Digits, an optional point with digits, at least one digit in all, and an exponent. -/
def decimal? (negative : Bool) (cs : List Char) : Option Float :=
  let whole := cs.takeWhile Char.isDigit
  let rest := cs.dropWhile Char.isDigit
  let (places, rest) :=
    match rest with
    | '.' :: rest => (rest.takeWhile Char.isDigit, rest.dropWhile Char.isDigit)
    | rest => ([], rest)
  if whole.isEmpty && places.isEmpty then none
  else
    (exponent? rest).map fun e =>
      round negative (digitsValue (whole ++ places)) (e - Int.ofNat places.length)

/-- A number without white space around it. -/
def number? (cs : List Char) : Option Float :=
  let (negative, rest) := sign cs
  let word := rest.map Char.toLower
  if word == "inf".toList || word == "infinity".toList then
    some (if negative then -Float.infinity else Float.infinity)
  else if word == "nan".toList then some Float.undefined
  else decimal? negative rest

end Reading

/-- The double a text stands for, if it is the text of a number. -/
def Float.ofText? (t : Text) : Option Float :=
  (Reading.dropUnderscores false ((t.trimWith isNumberBlank).map Reading.plain)).bind
    Reading.number?

end RobotBlocks
