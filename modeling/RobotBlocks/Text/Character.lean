import RobotBlocks.Text.Basic

/-!
# Classes of characters

White space, decimal digits and letter case, as the reading of block types, guards and numbers
needs them. The classes follow Unicode 14; the larger tables (which characters print, which belong
to words) have modules of their own.
-/

namespace RobotBlocks

/-- Whether the code point lies in one of the inclusive ranges. -/
def inRanges (ranges : List (Nat × Nat)) (code : Nat) : Bool :=
  ranges.any fun r => r.1 ≤ code && code ≤ r.2

/-- White space: the ASCII blanks with the four separators U+001C to U+001F, the next-line
character, and every Unicode space or line separator. -/
def isBlank (c : Char) : Bool :=
  let n := c.toNat
  (9 ≤ n && n ≤ 13) || (28 ≤ n && n ≤ 32) || n == 0x85 || n == 0xA0 || n == 0x1680 ||
    (0x2000 ≤ n && n ≤ 0x200A) || n == 0x2028 || n == 0x2029 || n == 0x202F || n == 0x205F ||
    n == 0x3000

/-- The white space that may surround the text of a number: the ASCII separators U+001C to U+001F
do not belong to it. -/
def isNumberBlank (c : Char) : Bool :=
  isBlank c && !(28 ≤ c.toNat && c.toNat ≤ 31)

/-- The code points of the zeros of all scripts; the ten digits of a script follow one another. -/
def digitZeros : List Nat :=
  [0x30, 0x660, 0x6F0, 0x7C0, 0x966, 0x9E6, 0xA66, 0xAE6, 0xB66, 0xBE6, 0xC66, 0xCE6, 0xD66, 0xDE6,
   0xE50, 0xED0, 0xF20, 0x1040, 0x1090, 0x17E0, 0x1810, 0x1946, 0x19D0, 0x1A80, 0x1A90, 0x1B50,
   0x1BB0, 0x1C40, 0x1C50, 0xA620, 0xA8D0, 0xA900, 0xA9D0, 0xA9F0, 0xAA50, 0xABF0, 0xFF10,
   0x104A0, 0x10D30, 0x11066, 0x110F0, 0x11136, 0x111D0, 0x112F0, 0x11450, 0x114D0, 0x11650,
   0x116C0, 0x11730, 0x118E0, 0x11950, 0x11C50, 0x11D50, 0x11DA0, 0x16A60, 0x16AC0, 0x16B50,
   0x1D7CE, 0x1D7D8, 0x1D7E2, 0x1D7EC, 0x1D7F6, 0x1E140, 0x1E2F0, 0x1E950, 0x1FBF0]

/-- The value of a decimal digit of any script. -/
def digitValue? (c : Char) : Option Nat :=
  let n := c.toNat
  if n < 128 then
    if 48 ≤ n && n ≤ 57 then some (n - 48) else none
  else (digitZeros.find? fun first => first ≤ n && n < first + 10).map (n - ·)

/-- Whether the character is a decimal digit of any script. -/
def isDigit (c : Char) : Bool := (digitValue? c).isSome

/-- The lower-case letter of `A` to `Z` and of the Kelvin sign. Every other character has a
lower-case form that holds no ASCII letter of its own, or is one already; it is left alone, so
texts lowered here may be compared with ASCII texts. -/
def lowerChar (c : Char) : Char :=
  if c.toNat == 0x212A then 'k' else c.toLower

/-- The text in lower case, as far as a comparison with an ASCII text can see. -/
def Text.lower (t : Text) : Text :=
  t.map fun p =>
    match p with
    | .char c => .char (lowerChar c)
    | p => p

/-- The upper-case spelling of a character as far as it is made of ASCII letters: `a` to `z`, the
dotless i, the long and the sharp s, and the Latin ligatures. Every other character is left
alone. -/
def upperChars (c : Char) : List Char :=
  match c.toNat with
  | 0xDF => ['S', 'S']
  | 0x131 => ['I']
  | 0x17F => ['S']
  | 0xFB00 => ['F', 'F']
  | 0xFB01 => ['F', 'I']
  | 0xFB02 => ['F', 'L']
  | 0xFB03 => ['F', 'F', 'I']
  | 0xFB04 => ['F', 'F', 'L']
  | 0xFB05 => ['S', 'T']
  | 0xFB06 => ['S', 'T']
  | _ => [c.toUpper]

/-- The text in upper case, as far as a comparison with an ASCII text can see. -/
def upper (s : String) : String := String.ofList (s.toList.flatMap upperChars)

namespace Text

/-- The text without the characters of the class at either end. -/
def trimWith (p : Char → Bool) (t : Text) : Text :=
  ((t.dropWhile (Piece.isIn p)).reverse.dropWhile (Piece.isIn p)).reverse

/-- The text without white space at either end. -/
def trim (t : Text) : Text := t.trimWith isBlank

/-- The text without white space at the end. -/
def trimEnd (t : Text) : Text := (t.reverse.dropWhile (Piece.isIn isBlank)).reverse

end Text

end RobotBlocks
