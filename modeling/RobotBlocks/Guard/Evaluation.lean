import RobotBlocks.Guard.Expression
import RobotBlocks.Diagnostic

/-!
# Evaluating guards

The value of a guard is a truth value or a number. Truth values take part in comparisons as zero and
one; a number counts as true unless it is zero. `Guard.holds` decides a raw condition: a missing or
blank one holds, and one that cannot be read is recorded and does not hold.
-/

namespace RobotBlocks

namespace Guard

/-- The value of an expression. -/
inductive Value
  | truth (value : Bool)
  | number (value : Float)

namespace Value

/-- The value as a number. -/
def toNumber : Value → Float
  | truth b => if b then 1.0 else 0.0
  | number x => x

/-- Whether the value counts as true. -/
def holds : Value → Bool
  | truth b => b
  | number x => !(x == 0.0)

end Value

/-- Whether the comparison holds between two numbers. -/
def Comparison.holds (c : Comparison) (a b : Float) : Bool :=
  match c with
  | .eq => a == b
  | .ne => !(a == b)
  | .lt => decide (a < b)
  | .le => decide (a ≤ b)
  | .gt => decide (b < a)
  | .ge => decide (b ≤ a)

namespace Expression

mutual

/-- The value of an expression. -/
def value : Expression → Value
  | truth b => .truth b
  | number x => .number x
  | negate e => .truth (!(value e).holds)
  | compare c left right => .truth (c.holds (value left).toNumber (value right).toNumber)
  | all es => .truth (allHold es)
  | any es => .truth (anyHolds es)

/-- Whether all expressions hold. -/
def allHold : List Expression → Bool
  | [] => true
  | e :: es => (value e).holds && allHold es

/-- Whether one of the expressions holds. -/
def anyHolds : List Expression → Bool
  | [] => false
  | e :: es => (value e).holds || anyHolds es

end

end Expression

/-- Whether a raw condition of a block holds. -/
def holds (condition : Option Data) (block : Option Text) (ds : Diagnostics) :
    Bool × Diagnostics :=
  match condition.getD .null with
  | .null => (true, ds)
  | .flag b => (b, ds)
  | .integer n => (n != 0, ds)
  | .real x => (!(x == 0.0), ds)
  | condition =>
    let text := condition.shown.trim
    if text.isEmpty then (true, ds)
    else
      match Expression.parse text with
      | .ok e => (e.value.holds, ds)
      | .error fault =>
        (false, ds.warn block
          ("Cannot evaluate condition " ++ quoted text ++ ": " ++ fault.message ++
            "; treating it as false") .condition)

end Guard

end RobotBlocks
