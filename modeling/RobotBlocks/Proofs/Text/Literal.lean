import RobotBlocks.Proofs.Text.LineBreak

/-!
# String literals

A string literal is a text between double quotes. In it a backslash and the character behind it
stand for one character; a double quote without a backslash ends the literal, and so a line break, a
NUL or a half of a pair, which have no place in a line of source text, make it unreadable.

`Literal.read?` reads a literal. Where backslashes and double quotes are escaped and nothing else
is, as in `Literal.quote`, a literal can be read if and only if nothing unreadable is in its text,
and then it denotes the text (`Literal.read?_quote`).
-/

namespace RobotBlocks

namespace Literal

/-- Whether a piece can stand in a line of source text. -/
def isReadable : Piece → Bool
  | .char c => c != '\n' && c != '\r' && c != '\x00'
  | .half _ => false

/-- What a backslash and a character stand for together. Escapes that tell a character by its number
or its name are left out, and so is a backslash that stands for itself. -/
def escaped? : Piece → Option Piece
  | .char '\\' => some (.char '\\')
  | .char '"' => some (.char '"')
  | .char '\'' => some (.char '\'')
  | .char 'a' => some (.char '\x07')
  | .char 'b' => some (.char '\x08')
  | .char 'f' => some (.char '\x0c')
  | .char 'n' => some (.char '\n')
  | .char 'r' => some (.char '\r')
  | .char 't' => some (.char '\t')
  | .char 'v' => some (.char '\x0b')
  | _ => none

/-- The text that a literal denotes from behind its first quote on; none if it does not end with its
second quote, or is no literal. -/
def readBody? : Text → Option Text
  | [] => none
  | .char '"' :: rest => if rest.isEmpty then some [] else none
  | .char '\\' :: rest =>
    match rest with
    | [] => none
    | p :: rest => (escaped? p).bind fun q => (readBody? rest).map (q :: ·)
  | p :: rest => if isReadable p then (readBody? rest).map (p :: ·) else none

/-- The text that a literal denotes. -/
def read? : Text → Option Text
  | .char '"' :: rest => readBody? rest
  | _ => none

/-- A piece of a text in a literal: backslashes and double quotes are escaped. -/
def escape (p : Piece) : Text := if p == .char '\\' || p == .char '"' then [.char '\\', p] else [p]

/-- The text between double quotes. -/
def quote (t : Text) : Text := "\"" ++ t.flatMap escape ++ "\""

/-- An escaped piece denotes the piece, if it can be read. -/
theorem readBody?_escape (p : Piece) (rest : Text) :
    readBody? (escape p ++ rest) =
      if isReadable p then (readBody? rest).map (p :: ·) else none := by
  by_cases hbackslash : p = .char '\\'
  · subst hbackslash
    rfl
  by_cases hquote : p = .char '"'
  · subst hquote
    rfl
  have hescape : escape p = [p] := by simp [escape, hbackslash, hquote]
  rw [hescape, List.singleton_append, readBody?]
  · exact hquote
  · exact hbackslash

/-- **A quoted text can be read** if and only if all of it is readable, and then it
denotes itself. -/
theorem read?_quote (t : Text) : read? (quote t) = if t.all isReadable then some t else none := by
  change readBody? (t.flatMap escape ++ "\"") = _
  induction t with
  | nil => rfl
  | cons p t ih =>
    rw [List.flatMap_cons, List.append_assoc, readBody?_escape, ih, List.all_cons]
    cases isReadable p <;> cases t.all isReadable <;> rfl

/-- A quoted text stands on one line if and only if the text does. -/
theorem isInline_quote {t : Text} : (quote t).IsInline ↔ t.IsInline := by
  have hescape : ∀ p, Text.lineBreak ∈ escape p ↔ Text.lineBreak = p := fun p => by
    unfold escape
    split <;> simp [Text.lineBreak]
  have hquote : Text.lineBreak ∉ ("\"" : Text) := by decide
  simp [Text.IsInline, quote, hquote, hescape]

end Literal

end RobotBlocks
