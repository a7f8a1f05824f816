/-!
# Texts

The texts of projects come from files in which a character beyond the first 65536 may be spelled as
a pair of code units. One half of such a pair can stand there without the other, and then it is no
character, so a text is a list of pieces, each a character or such a half. Every string is a text;
`Text.toString` is what can be shown of a text as a string.

The order of texts is that of their code points, from the first piece on.
-/

namespace RobotBlocks

/-- A piece of a text. -/
inductive Piece
  | char (c : Char)
  /-- A code unit of a pair without the other one, counted from U+D800 on. -/
  | half (index : Fin 0x800)
  deriving DecidableEq, Repr

namespace Piece

/-- The code point of a piece. -/
def code : Piece → Nat
  | char c => c.toNat
  | half index => 0xD800 + index

/-- The piece of a code point below U+10000. -/
def ofUnit (n : Nat) : Piece :=
  if h : 0xD800 ≤ n ∧ n < 0xE000 then half ⟨n - 0xD800, by omega⟩ else char (Char.ofNat n)

/-- The character that is shown for a piece: U+FFFD for a half. -/
def shown : Piece → Char
  | char c => c
  | half _ => '\uFFFD'

/-- Whether the piece is a character of the class. -/
def isIn (p : Char → Bool) : Piece → Bool
  | char c => p c
  | half _ => false

instance : LT Piece := ⟨fun a b => a.code < b.code⟩

instance (a b : Piece) : Decidable (a < b) := inferInstanceAs (Decidable (a.code < b.code))

end Piece

/-- A text. -/
abbrev Text := List Piece

namespace Text

/-- The text of the characters. -/
def ofChars (cs : List Char) : Text := cs.map .char

/-- The text that a string is. -/
def ofString (s : String) : Text := ofChars s.toList

instance : Coe String Text := ⟨ofString⟩

/-- The characters shown for a text. -/
def chars (t : Text) : List Char := t.map Piece.shown

/-- What can be shown of a text as a string. -/
def toString (t : Text) : String := String.ofList t.chars

end Text

end RobotBlocks
