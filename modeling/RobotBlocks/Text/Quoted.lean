import RobotBlocks.Number.Decimal
import RobotBlocks.Text.Printable

/-!
# Quoted texts

A text between quotes as messages show it: in single quotes, or in double quotes if it holds a
single quote and no double one. The backslash and the quote in use are escaped, and so is every
character that does not print, and every half of a pair that stands alone.
-/

namespace RobotBlocks

/-- A number in lower-case hexadecimal digits, filled up with zeros to the given width. -/
def hexChars (width n : Nat) : List Char :=
  let digits := Nat.toDigits 16 n
  List.replicate (width - digits.length) '0' ++ digits

namespace Quoted

/-- The quote put around a text. -/
def quoteFor (t : Text) : Char :=
  if t.contains (.char '\'') && !t.contains (.char '"') then '"' else '\''

/-- A character as it stands between the quotes. -/
def escape (quote c : Char) : List Char :=
  if c == quote || c == '\\' then ['\\', c]
  else if c == '\n' then ['\\', 'n']
  else if c == '\r' then ['\\', 'r']
  else if c == '\t' then ['\\', 't']
  else if isPrintable c then [c]
  else if c.toNat < 0x100 then '\\' :: 'x' :: hexChars 2 c.toNat
  else if c.toNat < 0x10000 then '\\' :: 'u' :: hexChars 4 c.toNat
  else '\\' :: 'U' :: hexChars 8 c.toNat

/-- A piece as it stands between the quotes. -/
def escapePiece (quote : Char) : Piece → List Char
  | .char c => escape quote c
  | .half index => '\\' :: 'u' :: hexChars 4 (0xD800 + index)

/-- The characters of a quoted text, quotes included. -/
def chars (t : Text) : List Char :=
  let quote := quoteFor t
  quote :: t.flatMap (escapePiece quote) ++ [quote]

end Quoted

/-- The text between quotes. -/
def quoted (t : Text) : String := String.ofList (Quoted.chars t)

end RobotBlocks
