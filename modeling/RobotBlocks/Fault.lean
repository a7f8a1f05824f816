import RobotBlocks.Data

/-!
# Faults

Everything that can make a call fail, by its cause. A call that fails may have done part of its
work: the state it leaves is as much a part of its answer as the fault.

`Fault.message` words a fault.
-/

namespace RobotBlocks

/-- Why a file could not be opened or written. -/
inductive FileFault
  /-- Nothing has this path. -/
  | missing (path : String)
  /-- The path names a directory. -/
  | directory (path : String)
  /-- The path goes through something that is not a directory. -/
  | notDirectory (path : String)
  /-- The path, or a name in it, is longer than any can be. -/
  | tooLong (path : String)
  /-- The device takes nothing more. -/
  | noSpace
  /-- The path holds a null character. -/
  | nullInPath
  deriving DecidableEq

/-- The wording of a file fault. -/
def FileFault.message : FileFault → String
  | .missing path => "[Errno 2] No such file or directory: " ++ quoted path
  | .directory path => "[Errno 21] Is a directory: " ++ quoted path
  | .notDirectory path => "[Errno 20] Not a directory: " ++ quoted path
  | .tooLong path => "[Errno 36] File name too long: " ++ quoted path
  | .noSpace => "[Errno 28] No space left on device"
  | .nullInPath => "embedded null byte"

/-- The cause of a failing call. -/
inductive Fault
  /-- An integer beyond the range of doubles was needed as one. -/
  | integerTooLarge
  /-- An infinity was needed as an integer. -/
  | infiniteInteger
  /-- An undefined number was needed as an integer. -/
  | undefinedInteger
  /-- A loop is to run more often than can be counted. -/
  | uncountable
  /-- The text, shown in quotes, is not the text of a number. -/
  | notNumeric (shown : String)
  /-- The sine or cosine of an infinity. -/
  | outsideDomain
  /-- A division by zero. -/
  | divisionByZero
  /-- A size with fewer than three parts. -/
  | tooFewParts (count : Nat)
  /-- A size with more than three parts. -/
  | tooManyParts
  /-- A value of this kind has no parts. -/
  | noParts (kind : String)
  /-- A value of this kind is no number and no text. -/
  | notReal (kind : String)
  /-- A value of this kind has no items. -/
  | notIterable (kind : String)
  /-- A value of this kind lacks what a record or a text offers under this name. -/
  | lacks (kind member : String)
  /-- An arithmetic operation on values of these kinds. -/
  | operands (operation left right : String)
  /-- A comparison of values of these kinds. -/
  | unordered (left right : String)
  /-- The table has no entry of this name. -/
  | missingKey (key : String)
  /-- The value, shown here, was submitted in place of a command. -/
  | notCommand (shown : String)
  /-- The label names no member of the family. -/
  | unknownLabel (label family : String)
  /-- The format of a log, shown here, was asked for as a level. -/
  | unknownLevel (shown : String)
  /-- A table of formats, shown here, was asked for as a level. -/
  | noLevel (shown : String)
  /-- A file could not be opened or written. -/
  | file (fault : FileFault)
  /-- A file nests lists and records deeper than they are followed; this is the innermost one. -/
  | tooDeep (container : String)
  /-- An observer failed on purpose. -/
  | raised (message : String)
  deriving DecidableEq

/-- The wording of a fault. -/
def Fault.message : Fault → String
  | .integerTooLarge => "int too large to convert to float"
  | .infiniteInteger => "cannot convert float infinity to integer"
  | .undefinedInteger => "cannot convert float NaN to integer"
  | .uncountable => "Python int too large to convert to C ssize_t"
  | .notNumeric shown => "could not convert string to float: " ++ shown
  | .outsideDomain => "math domain error"
  | .divisionByZero => "float division by zero"
  | .tooFewParts count =>
    "not enough values to unpack (expected 3, got " ++ natText count ++ ")"
  | .tooManyParts => "too many values to unpack (expected 3)"
  | .noParts kind => "cannot unpack non-iterable " ++ kind ++ " object"
  | .notReal kind => "float() argument must be a string or a real number, not '" ++ kind ++ "'"
  | .notIterable kind => "'" ++ kind ++ "' object is not iterable"
  | .lacks kind member => "'" ++ kind ++ "' object has no attribute '" ++ member ++ "'"
  | .operands operation left right =>
    "unsupported operand type(s) for " ++ operation ++ ": '" ++ left ++ "' and '" ++ right ++ "'"
  | .unordered left right =>
    "'>' not supported between instances of '" ++ left ++ "' and '" ++ right ++ "'"
  | .missingKey key => quoted key
  | .notCommand shown => "Not a simulation command: " ++ shown
  | .unknownLabel label family => label ++ " is not a valid " ++ family
  | .unknownLevel shown => "Unknown level: " ++ shown
  | .noLevel shown => "Level not an integer or a valid string: " ++ shown
  | .file fault => fault.message
  | .tooDeep container =>
    "maximum recursion depth exceeded while decoding a JSON " ++ container ++
      " from a unicode string"
  | .raised message => message

/-- The double nearest to an integer, if the range of doubles reaches it. -/
def Float.ofInt? (n : Int) : Except Fault Float :=
  let x := Float.ofInt n
  if x.isInf then .error .integerTooLarge else .ok x

/-- The number that a raw value stands for: truth values count as zero and one, texts are read. -/
def Data.toNumber : Data → Except Fault Float
  | .flag b => .ok (if b then 1.0 else 0.0)
  | .integer n => Float.ofInt? n
  | .real x => .ok x
  | .text t =>
    match Float.ofText? t with
    | some x => .ok x
    | none => .error (.notNumeric (quoted t))
  | value => .error (.notReal value.kindName)

/-- The integer left when the digits of a double behind the point are dropped. -/
def Float.toInteger (x : Float) : Except Fault Int :=
  match Binary.ofFloat x with
  | .nan => .error .undefinedInteger
  | .infinite _ => .error .infiniteInteger
  | b => .ok (b.truncate?.getD 0)

/-- The integer nearest to a double, a half going to the even one. -/
def Float.nearestInteger (x : Float) : Except Fault Int :=
  match Binary.ofFloat x with
  | .nan => .error .undefinedInteger
  | .infinite _ => .error .infiniteInteger
  | .finite negative mantissa exponent =>
    let (numerator, denominator) := Decimal.fraction mantissa exponent
    let size := Int.ofNat (roundQuotient numerator denominator)
    .ok (if negative then -size else size)

end RobotBlocks
