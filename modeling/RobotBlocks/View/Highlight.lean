import RobotBlocks.Text.Word

/-!
# Highlighting of code

The colours of a line of generated code. Each rule knows how long the stretch is that it colours
from a place on, and is tried at every place that its earlier stretches leave free; the rules do not
know of each other, so their stretches may overlap, and the later rule then wins.

Places and lengths count characters.
-/

namespace RobotBlocks

namespace Highlight

/-- How a stretch of code is written. -/
structure Style where
  colour : String
  bold : Bool
  italic : Bool
  deriving DecidableEq, Repr

/-- A stretch of a line. -/
structure Stretch where
  start : Nat
  length : Nat
  deriving DecidableEq, Repr

/-- A rule: a style, and the length of what it applies to at the beginning of the characters, given
whether they follow a word character; zero where it does not apply. -/
structure Rule where
  style : Style
  length : (afterWord : Bool) → List Char → Nat

/-! ## What the rules apply to -/

/-- The words of the language. -/
def keywords : List String :=
  ["import", "def", "for", "in", "if", "pass", "and", "or", "not", "True", "False"]

/-- A whole word that is a keyword. -/
def keywordLength (afterWord : Bool) (cs : List Char) : Nat :=
  let word := cs.takeWhile isWordChar
  if !afterWord && keywords.contains (String.ofList word) then word.length else 0

/-- Whether the character may stand in the name of a call. -/
def isCallChar (c : Char) : Bool := c.isLower || c == '_'

/-- The length of a call on the given object. -/
def callOf (owner : List Char) (cs : List Char) : Nat :=
  if (owner ++ ['.']).isPrefixOf cs then
    match (cs.drop (owner.length + 1)).takeWhile isCallChar with
    | [] => 0
    | name => owner.length + 1 + name.length
  else 0

/-- The beginning of a word, followed by a point and a name. -/
def callLength (afterWord : Bool) (cs : List Char) : Nat :=
  if afterWord then 0 else max (callOf "robot".toList cs) (callOf "time".toList cs)

/-- Whether a word that the characters follow ends there. -/
def endsWord : List Char → Bool
  | [] => true
  | c :: _ => !isWordChar c

/-- Digits that are a word of their own, with as many of a fraction if that is a word as well. -/
def numberLength (afterWord : Bool) (cs : List Char) : Nat :=
  let whole := cs.takeWhile isDigit
  if afterWord || whole.isEmpty then 0
  else
    match cs.dropWhile isDigit with
    | '.' :: rest =>
      let places := rest.takeWhile isDigit
      if !places.isEmpty && endsWord (rest.dropWhile isDigit) then whole.length + 1 + places.length
      else whole.length
    | rest => if endsWord rest then whole.length else 0

/-- A text between two quotes. -/
def textLength (_afterWord : Bool) : List Char → Nat
  | '"' :: rest =>
    let inside := rest.takeWhile (· != '"')
    if inside.length < rest.length then inside.length + 2 else 0
  | _ => 0

/-- A comment, up to the end of the line. -/
def commentLength (_afterWord : Bool) : List Char → Nat
  | '#' :: rest =>
    let comment := rest.takeWhile (· != '\n')
    if rest.length ≤ comment.length + 1 then comment.length + 1 else 0
  | _ => 0

/-- The rules, in the order in which they are tried. -/
def rules : List Rule :=
  [⟨⟨"#ff8cc8", true, false⟩, keywordLength⟩,
   ⟨⟨"#74c0fc", false, false⟩, callLength⟩,
   ⟨⟨"#ffd43b", false, false⟩, numberLength⟩,
   ⟨⟨"#51cf66", false, false⟩, textLength⟩,
   ⟨⟨"#868e96", false, true⟩, commentLength⟩]

/-! ## Lines -/

/-- The stretches of a rule, from a place on; the first `skip` characters are taken. -/
def stretches (length : Bool → List Char → Nat) :
    (skip place : Nat) → (afterWord : Bool) → List Char → List Stretch
  | _, _, _, [] => []
  | skip + 1, place, _, c :: cs => stretches length skip (place + 1) (isWordChar c) cs
  | 0, place, afterWord, c :: cs =>
    match length afterWord (c :: cs) with
    | 0 => stretches length 0 (place + 1) (isWordChar c) cs
    | n + 1 => ⟨place, n + 1⟩ :: stretches length n (place + 1) (isWordChar c) cs

/-- The stretches of a line with their styles, rule by rule. -/
def ofLine (line : Text) : List (Stretch × Style) :=
  rules.flatMap fun rule =>
    (stretches rule.length 0 0 false line.chars).map fun stretch => (stretch, rule.style)

end Highlight

end RobotBlocks
