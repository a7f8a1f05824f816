import RobotBlocks.Fault

/-!
# Tokens of guards

The guard of a conditional is a text such as `1 < 2 and not false`. `Guard.tokenize` splits it into
numbers, operators, parentheses and the five words `true`, `false`, `and`, `or`, `not` in any letter
case, with any white space between them.
-/

namespace RobotBlocks

namespace Guard

/-- A comparison of two operands. -/
inductive Comparison
  | eq
  | ne
  | lt
  | le
  | gt
  | ge
  deriving DecidableEq, Repr

/-- The sign of a comparison. -/
def Comparison.sign : Comparison → String
  | .eq => "=="
  | .ne => "!="
  | .lt => "<"
  | .le => "<="
  | .gt => ">"
  | .ge => ">="

/-- The smallest part of a guard. -/
inductive Token
  /-- A number, as it was spelled. -/
  | number (spelling : String)
  | compare (comparison : Comparison)
  /-- The word `and`, or its sign. -/
  | both (asSign : Bool)
  /-- The word `or`, or its sign. -/
  | either (asSign : Bool)
  /-- The word `not`, or its sign. -/
  | negate (asSign : Bool)
  | truth (value : Bool)
  | opening
  | closing
  deriving DecidableEq, Repr

namespace Token

/-- What sort of lexeme a token is. -/
def sort : Token → String
  | number _ => "number"
  | compare _ | opening | closing | both true | either true | negate true => "op"
  | truth _ | both false | either false | negate false => "word"

/-- The text of a token, words in lower case. -/
def text : Token → String
  | number spelling => spelling
  | compare c => c.sign
  | both asSign => if asSign then "&&" else "and"
  | either asSign => if asSign then "||" else "or"
  | negate asSign => if asSign then "!" else "not"
  | truth value => if value then "true" else "false"
  | opening => "("
  | closing => ")"

end Token

/-- Why a text is no guard. -/
inductive Fault
  /-- No token begins here, after white space at most. -/
  | character (position : Nat) (rest : Text)
  /-- A word that guards do not know. -/
  | name (word : String)
  /-- A token in a place where it cannot stand. -/
  | token (text : String)
  /-- The guard ends where an operand is missing. -/
  | ending
  /-- A parenthesis is not closed. -/
  | unclosed
  /-- Too many negations and parentheses inside each other. -/
  | nesting
  deriving DecidableEq, Repr

/-- How many negations and parentheses may enclose a token. -/
def maxNesting : Nat := 64

/-- The wording of a fault. -/
def Fault.message : Fault → String
  | .character position rest =>
    "Unexpected character at " ++ natText position ++ ": " ++ quoted rest
  | .name word => "Unknown name: " ++ word
  | .token text => "Unexpected token: " ++ text
  | .ending => "Unexpected end of condition"
  | .unclosed => "Missing closing parenthesis"
  | .nesting => "Condition nested deeper than " ++ natText maxNesting ++ " levels"

/-- Whether the character may stand in a word. -/
def isLetter (c : Char) : Bool := c.isAlpha || c == '_'

/-- The digits at the front, with a point and more digits if there is one: the digits before the
point may be missing if some follow it. -/
def unsigned? (cs : List Char) : Option (List Char × List Char) :=
  let whole := cs.takeWhile isDigit
  match whole, cs.dropWhile isDigit with
  | [], '.' :: rest =>
    let places := rest.takeWhile isDigit
    if places.isEmpty then none else some ('.' :: places, rest.dropWhile isDigit)
  | [], _ => none
  | whole, '.' :: rest => some (whole ++ '.' :: rest.takeWhile isDigit, rest.dropWhile isDigit)
  | whole, rest => some (whole, rest)

/-- A number at the front, with a minus sign or without. -/
def number? (cs : List Char) : Option (List Char × List Char) :=
  match cs with
  | '-' :: rest => (unsigned? rest).map fun (spelling, rest) => ('-' :: spelling, rest)
  | cs => unsigned? cs

/-- An operator or a parenthesis at the front; of two that fit, the longer one. -/
def sign? : List Char → Option (Token × List Char)
  | '=' :: '=' :: rest => some (.compare .eq, rest)
  | '!' :: '=' :: rest => some (.compare .ne, rest)
  | '<' :: '=' :: rest => some (.compare .le, rest)
  | '>' :: '=' :: rest => some (.compare .ge, rest)
  | '<' :: rest => some (.compare .lt, rest)
  | '>' :: rest => some (.compare .gt, rest)
  | '&' :: '&' :: rest => some (.both true, rest)
  | '|' :: '|' :: rest => some (.either true, rest)
  | '!' :: rest => some (.negate true, rest)
  | '(' :: rest => some (.opening, rest)
  | ')' :: rest => some (.closing, rest)
  | _ => none

/-- The token of a word. -/
def word? (word : String) : Option Token :=
  if word == "true" then some (.truth true)
  else if word == "false" then some (.truth false)
  else if word == "and" then some (.both false)
  else if word == "or" then some (.either false)
  else if word == "not" then some (.negate false)
  else none

/-- The token at the front and the rest; none if no token begins here. -/
def lexeme? (cs : List Char) : Option (Except Fault (Token × List Char)) :=
  match number? cs with
  | some (spelling, rest) => some (.ok (.number (String.ofList spelling), rest))
  | none =>
    match sign? cs with
    | some r => some (.ok r)
    | none =>
      let letters := cs.takeWhile isLetter
      if letters.isEmpty then none
      else
        match word? (String.ofList (letters.map Char.toLower)) with
        | some token => some (.ok (token, cs.dropWhile isLetter))
        | none => some (.error (.name (String.ofList letters)))

/-- What is wrong with a text at whose last characters no token begins. -/
def misfit (text : Text) (rest : List Char) : Fault :=
  .character (text.length - rest.length) (text.drop (text.length - rest.length))

/-- The tokens of the characters that are left of a text. Every token takes away one of `fuel`; the
length of the text is enough. -/
def tokensFrom (text : Text) : (fuel : Nat) → List Char → Except Fault (List Token)
  | _, [] => .ok []
  | 0, cs => .error (misfit text cs)
  | fuel + 1, cs =>
    match lexeme? (cs.dropWhile isBlank) with
    | none => .error (misfit text cs)
    | some (.error fault) => .error fault
    | some (.ok (token, rest)) => (tokensFrom text fuel rest).map (token :: ·)

/-- The tokens of a text. No token has a place for a half of a pair, nor for the character that is
shown in its stead. -/
def tokenize (text : Text) : Except Fault (List Token) :=
  let text := text.trimEnd
  tokensFrom text text.length text.chars

end Guard

end RobotBlocks
