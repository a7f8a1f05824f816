import RobotBlocks.Guard.Token

/-!
# Expressions of guards

The tree of a guard over the grammar

    or   := and ((or | ||) and)*
    and  := not ((and | &&) not)*
    not  := (not | !) not | cmp
    cmp  := atom ((== | != | < | <= | > | >=) atom)?
    atom := true | false | number | ( or )

in which no token lies under more than `maxNesting` negations and parentheses. `Expression.parse`
finds the tree by recursive descent on the nesting that is still allowed; chains of `and` and `or`
stay flat, so their length is not limited.
-/

namespace RobotBlocks

namespace Guard

/-- The tree of a guard. -/
inductive Expression
  | truth (value : Bool)
  | number (value : Float)
  | negate (operand : Expression)
  | compare (comparison : Comparison) (left right : Expression)
  /-- All operands hold. -/
  | all (operands : List Expression)
  /-- One of the operands holds. -/
  | any (operands : List Expression)

namespace Expression

/-- A function that takes an expression off the front of a list of tokens. -/
abbrev Reader := List Token → Except Fault (Expression × List Token)

/-- The operands that follow separators at the front of the tokens. Every operand takes away one of
`fuel`; the number of tokens is enough, here and wherever `fuel` is handed on. -/
def chain (operand : Reader) (isSeparator : Token → Bool) :
    (fuel : Nat) → List Token → Except Fault (List Expression × List Token)
  | fuel + 1, t :: rest =>
    if isSeparator t then do
      let (first, rest) ← operand rest
      let (others, rest) ← chain operand isSeparator fuel rest
      return (first :: others, rest)
    else .ok ([], t :: rest)
  | _, ts => .ok ([], ts)

/-- An operand and those that separators tie to it: `join` makes one expression of two or more. -/
def chained (fuel : Nat) (operand : Reader) (isSeparator : Token → Bool)
    (join : List Expression → Expression) : Reader := fun ts => do
  let (first, rest) ← operand ts
  let (others, rest) ← chain operand isSeparator fuel rest
  return (if others.isEmpty then first else join (first :: others), rest)

/-- Whether the token ties operands that must all hold. -/
def isBoth : Token → Bool
  | .both _ => true
  | _ => false

/-- Whether the token ties operands one of which must hold. -/
def isEither : Token → Bool
  | .either _ => true
  | _ => false

/-- A disjunction of conjunctions of the given operands. -/
def disjunction (fuel : Nat) (operand : Reader) : Reader :=
  chained fuel (chained fuel operand isBoth .all) isEither .any

/-- A single operand. `inner` reads what stands between parentheses; without it they are nested
too deep. -/
def atom (inner : Option Reader) : Reader
  | [] => .error .ending
  | .number spelling :: rest => .ok (.number ((Float.ofText? spelling).getD 0.0), rest)
  | .truth value :: rest => .ok (.truth value, rest)
  | .opening :: rest =>
    match inner with
    | none => .error .nesting
    | some inner => do
      let (e, rest) ← inner rest
      match rest with
      | .closing :: rest => return (e, rest)
      | _ => .error .unclosed
  | t :: _ => .error (.token t.text)

/-- One operand, or two with a comparison between them. -/
def comparison (operand : Reader) : Reader := fun ts => do
  let (left, rest) ← operand ts
  match rest with
  | .compare c :: rest =>
    let (right, rest) ← operand rest
    return (.compare c left right, rest)
  | _ => return (left, rest)

/-- A comparison behind any number of negations, with so many levels of nesting left. -/
def negation (fuel : Nat) : (levels : Nat) → Reader
  | 0 => fun ts =>
    match ts with
    | .negate _ :: _ => .error .nesting
    | ts => comparison (atom none) ts
  | levels + 1 => fun ts =>
    match ts with
    | .negate _ :: rest => do
      let (e, rest) ← negation fuel levels rest
      return (.negate e, rest)
    | ts => comparison (atom (some (disjunction fuel (negation fuel levels)))) ts

/-- The expression that all of the tokens form. No tokens form the one that holds. -/
def ofTokens (ts : List Token) : Except Fault Expression :=
  if ts.isEmpty then .ok (.truth true)
  else do
    let (e, rest) ← disjunction ts.length (negation ts.length maxNesting) ts
    match rest with
    | [] => return e
    | t :: _ => .error (.token t.text)

/-- The expression of a guard. -/
def parse (text : Text) : Except Fault Expression := tokenize text >>= ofTokens

end Expression

end Guard

end RobotBlocks
