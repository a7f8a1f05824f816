import RobotBlocks.Fault

/-!
# Comparing raw values

Raw values are equal (`Data.isEqual`) if they agree in content: numbers and truth values as numbers,
whatever their kind, lists item by item, and records by the names of their fields, in whatever order
these stand. Only numbers, texts and lists have an order (`Data.isLess`).
-/

namespace RobotBlocks

namespace Data

/-- The integer that a raw number is; none for a double. -/
def integer? : Data → Option Int
  | .flag b => some (if b then 1 else 0)
  | .integer n => some n
  | _ => none

/-- Whether the integer is less than the double; the comparison is exact. -/
def integerLess (n : Int) (x : Float) : Bool :=
  match Binary.ofFloat x with
  | .nan => false
  | .infinite negative => !negative
  | .finite negative mantissa exponent =>
    let size := Int.ofNat (mantissa * powerOfTwo exponent.toNat)
    decide (n * Int.ofNat (powerOfTwo (-exponent).toNat) < if negative then -size else size)

/-- Whether the double is less than the integer; the comparison is exact. -/
def lessInteger (x : Float) (n : Int) : Bool :=
  match Binary.ofFloat x with
  | .nan => false
  | .infinite negative => negative
  | .finite negative mantissa exponent =>
    let size := Int.ofNat (mantissa * powerOfTwo exponent.toNat)
    decide ((if negative then -size else size) < n * Int.ofNat (powerOfTwo (-exponent).toNat))

/-- Whether the integer and the double are one number. -/
def isInteger (n : Int) (x : Float) : Bool :=
  !x.isNaN && !integerLess n x && !lessInteger x n

mutual

/-- Whether two raw values are equal: numbers and truth values by their size, lists item by item,
records field by field in any order. All undefined numbers of raw values are equal here. -/
def isEqual : Data → Data → Bool
  | .null, .null => true
  | .text s, .text t => s == t
  | .real x, .real y => x == y || (x.isNaN && y.isNaN)
  | .list as, .list bs => areEqual as bs
  | .record as, .record bs => as.length == bs.length && areFieldsEqual as bs
  | a, b =>
    match a.integer?, b.integer?, a, b with
    | some m, some n, _, _ => m == n
    | some m, none, _, .real y => isInteger m y
    | none, some n, .real x, _ => isInteger n x
    | _, _, _, _ => false

/-- Whether the items of two lists are equal. -/
def areEqual : List Data → List Data → Bool
  | [], [] => true
  | a :: as, b :: bs => isEqual a b && areEqual as bs
  | _, _ => false

/-- Whether the fields of a record are equal to those of the same name in another one. -/
def areFieldsEqual : List (Text × Data) → List (Text × Data) → Bool
  | [], _ => true
  | (name, a) :: as, bs =>
    (match Data.field? bs name with
      | some b => isEqual a b
      | none => false) && areFieldsEqual as bs

end

mutual

/-- Whether the first raw value is less than the second one. Numbers compare with numbers, texts
with texts and lists with lists. -/
def isLess : Data → Data → Except Fault Bool
  | .real x, .real y => .ok (decide (x < y))
  | .text s, .text t => .ok (decide (s < t))
  | .list as, .list bs => areLess as bs
  | a, b =>
    match a.integer?, b.integer?, a, b with
    | some m, some n, _, _ => .ok (decide (m < n))
    | some m, none, _, .real y => .ok (integerLess m y)
    | none, some n, .real x, _ => .ok (lessInteger x n)
    | _, _, _, _ => .error (.unordered b.kindName a.kindName)

/-- Whether a list is less than another one: the first items that differ decide. -/
def areLess : List Data → List Data → Except Fault Bool
  | [], bs => .ok !bs.isEmpty
  | _, [] => .ok false
  | a :: as, b :: bs => if isEqual a b then areLess as bs else isLess a b

end

end Data

end RobotBlocks
