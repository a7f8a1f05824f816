import RobotBlocks.Fault

/-!
# Reading JSON

`Json.read` turns a text into a raw value. It accepts the JSON grammar and the words `NaN`,
`Infinity` and `-Infinity` as numbers; an integer literal becomes an integer of any size up to 4300
digits and every other number a double. Of two fields with one name the later value wins, in the
place of the first. A text that does not fit is refused with the first problem met and its place,
counted in characters. Lists and records are followed to a depth of `maxDepth`; a text that goes
deeper is not refused like one that does not fit, but makes the whole call fail.
-/

namespace RobotBlocks

namespace Json

/-- What the text holds where it stops making sense. -/
inductive Problem
  /-- No value begins here. -/
  | value
  /-- No field name begins here. -/
  | name
  /-- The colon behind a field name is missing. -/
  | colon
  /-- The comma behind a value is missing. -/
  | comma
  /-- Something stands behind the value. -/
  | extra
  /-- The string that begins here does not end. -/
  | unterminated
  /-- A control character inside a string. -/
  | control
  /-- A backslash before a character that it does not escape. -/
  | escape
  /-- A code unit without its four hexadecimal digits. -/
  | codeUnit
  /-- The text begins with a byte order mark. -/
  | byteOrderMark
  deriving DecidableEq, Repr

/-- The wording of a problem. -/
def Problem.message : Problem → String
  | .value => "Expecting value"
  | .name => "Expecting property name enclosed in double quotes"
  | .colon => "Expecting ':' delimiter"
  | .comma => "Expecting ',' delimiter"
  | .extra => "Extra data"
  | .unterminated => "Unterminated string starting at"
  | .control => "Invalid control character at"
  | .escape => "Invalid \\escape"
  | .codeUnit => "Invalid \\uXXXX escape"
  | .byteOrderMark => "Unexpected UTF-8 BOM (decode using utf-8-sig)"

/-- Why a text was refused. -/
inductive Fault
  /-- A problem at a place: line and column from one on, and the number of characters before. -/
  | at (problem : Problem) (line column position : Nat)
  /-- An integer literal with more digits than are read. -/
  | digits (count : Nat)
  deriving DecidableEq, Repr

/-- The most digits an integer literal may have. -/
def maxDigits : Nat := 4300

/-- The wording of a fault. -/
def Fault.message : Fault → String
  | .at problem line column position =>
    problem.message ++ ": line " ++ natText line ++ " column " ++ natText column ++ " (char " ++
      natText position ++ ")"
  | .digits count =>
    "Exceeds the limit (" ++ natText maxDigits ++
      " digits) for integer string conversion: value has " ++ natText count ++
      " digits; use sys.set_int_max_str_digits() to increase the limit"

/-- The most lists and records that may lie inside each other. -/
def maxDepth : Nat := 987

/-- What values lie in. -/
inductive Container
  | list
  | record
  deriving DecidableEq, Repr

/-- The name of a container in messages. -/
def Container.name : Container → String
  | .list => "array"
  | .record => "object"

/-- Why reading stopped, before line and column are worked out. -/
inductive Stop
  | at (problem : Problem) (position : Nat)
  | digits (count : Nat)
  /-- The next container would lie too deep. -/
  | tooDeep (container : Container)
  deriving DecidableEq, Repr

/-- A part of the text that was read: its value, the position behind it and the rest. -/
structure Read (α : Type) where
  value : α
  position : Nat
  rest : List Char

/-- The blanks that may stand between the parts of a text. -/
def isSpace (c : Char) : Bool := c == ' ' || c == '\t' || c == '\n' || c == '\r'

/-- The position and the rest behind blanks. -/
def skipSpaces : (position : Nat) → List Char → Nat × List Char
  | position, [] => (position, [])
  | position, c :: rest =>
    if isSpace c then skipSpaces (position + 1) rest else (position, c :: rest)

/-- The value of a hexadecimal digit. -/
def hexDigit? (c : Char) : Option Nat :=
  let n := c.toNat
  if 48 ≤ n && n ≤ 57 then some (n - 48)
  else if 97 ≤ n && n ≤ 102 then some (n - 87)
  else if 65 ≤ n && n ≤ 70 then some (n - 55)
  else none

/-- The code unit of four hexadecimal digits. -/
def codeUnit? (a b c d : Char) : Option Nat := do
  let a ← hexDigit? a
  let b ← hexDigit? b
  let c ← hexDigit? c
  let d ← hexDigit? d
  return ((a * 16 + b) * 16 + c) * 16 + d

/-- The character that a backslash makes of a letter. -/
def escaped? (c : Char) : Option Char :=
  match c with
  | '"' => some '"'
  | '\\' => some '\\'
  | '/' => some '/'
  | 'b' => some '\x08'
  | 'f' => some '\x0c'
  | 'n' => some '\n'
  | 'r' => some '\r'
  | 't' => some '\t'
  | _ => none

/-- Puts a piece in front of what was read. -/
def Read.push (p : Piece) (r : Read Text) : Read Text :=
  { r with value := p :: r.value }

/-- Whether the code unit is the first one of a pair. -/
def isHighUnit (n : Nat) : Bool := 0xD800 ≤ n && n < 0xDC00

/-- Whether the code unit is the second one of a pair. -/
def isLowUnit (n : Nat) : Bool := 0xDC00 ≤ n && n < 0xE000

/-- The character of a pair of code units. -/
def pairChar (high low : Nat) : Char :=
  Char.ofNat (0x10000 + (high - 0xD800) * 0x400 + (low - 0xDC00))

/-- The rest of a string whose opening quote stands at `start`. A code unit needs a character
behind its digits, and a pair is only seen as one if something follows it. -/
def string (start : Nat) : (position : Nat) → List Char → Except Stop (Read Text)
  | _, [] => .error (.at .unterminated start)
  | position, '"' :: rest => .ok ⟨[], position + 1, rest⟩
  | _, ['\\'] => .error (.at .unterminated start)
  | position, '\\' :: 'u' :: a :: b :: c :: d :: rest =>
    match rest, codeUnit? a b c d with
    | [], _ => .error (.at .codeUnit (position + 1))
    | _, none => .error (.at .codeUnit (position + 1))
    | '\\' :: 'u' :: e :: f :: g :: h :: i :: more, some unit =>
      if isHighUnit unit then
        match codeUnit? e f g h with
        | none => .error (.at .codeUnit (position + 7))
        | some second =>
          if isLowUnit second then
            (string start (position + 12) (i :: more)).map
              (.push (.char (pairChar unit second)))
          else
            (string start (position + 6) ('\\' :: 'u' :: e :: f :: g :: h :: i :: more)).map
              (.push (.ofUnit unit))
      else
        (string start (position + 6) ('\\' :: 'u' :: e :: f :: g :: h :: i :: more)).map
          (.push (.ofUnit unit))
    | next :: more, some unit =>
      (string start (position + 6) (next :: more)).map (.push (.ofUnit unit))
  | position, '\\' :: 'u' :: _ => .error (.at .codeUnit (position + 1))
  | position, '\\' :: c :: rest =>
    match escaped? c with
    | some e => (string start (position + 2) rest).map (.push (.char e))
    | none => .error (.at .escape position)
  | position, c :: rest =>
    if c.toNat < 32 then .error (.at .control position)
    else (string start (position + 1) rest).map (.push (.char c))

/-- The digits at the front of the text, and the rest. -/
def digits (cs : List Char) : List Char × List Char :=
  (cs.takeWhile Char.isDigit, cs.dropWhile Char.isDigit)

/-- The part of a number before its point, sign included; none if no number begins here. -/
def whole? (cs : List Char) : Option (List Char × List Char) :=
  let (sign, cs) := match cs with
    | '-' :: rest => (['-'], rest)
    | cs => ([], cs)
  match cs with
  | '0' :: rest => some (sign ++ ['0'], rest)
  | cs =>
    let (ds, rest) := digits cs
    if ds.isEmpty then none else some (sign ++ ds, rest)

/-- The part of a number from its point on, if a digit follows the point. -/
def places (cs : List Char) : List Char × List Char :=
  match cs with
  | '.' :: rest =>
    let (ds, rest) := digits rest
    if ds.isEmpty then ([], cs) else ('.' :: ds, rest)
  | cs => ([], cs)

/-- The exponent of a number, if it has a digit. -/
def exponent (cs : List Char) : List Char × List Char :=
  match cs with
  | e :: rest =>
    if e == 'e' || e == 'E' then
      let (sign, rest) := match rest with
        | s :: more => if s == '-' || s == '+' then ([s], more) else ([], s :: more)
        | [] => ([], [])
      let (ds, rest) := digits rest
      if ds.isEmpty then ([], cs) else (e :: sign ++ ds, rest)
    else ([], cs)
  | [] => ([], [])

/-- The value of an integer literal. -/
def integerOf : List Char → Int
  | '-' :: ds => -Int.ofNat (Reading.digitsValue ds)
  | ds => Int.ofNat (Reading.digitsValue ds)

/-- A number. -/
def number (position : Nat) (cs : List Char) : Except Stop (Read Data) :=
  match whole? cs with
  | none => .error (.at .value position)
  | some (whole, rest) =>
    let (behind, rest) := places rest
    let (power, rest) := exponent rest
    let literal := whole ++ behind ++ power
    let position := position + literal.length
    if behind.isEmpty && power.isEmpty then
      let count := (whole.filter Char.isDigit).length
      if maxDigits < count then .error (.digits count)
      else .ok ⟨.integer (integerOf whole), position, rest⟩
    else
      .ok ⟨.real ((Float.ofText? (.ofChars literal)).getD 0.0), position, rest⟩

/-- The words that stand for values. -/
def words : List (List Char × Data) :=
  [("null".toList, .null), ("true".toList, .flag true), ("false".toList, .flag false),
   ("NaN".toList, .real Float.undefined), ("Infinity".toList, .real Float.infinity),
   ("-Infinity".toList, .real (-Float.infinity))]

/-- The value of a word at the front of the text. -/
def word? (position : Nat) (cs : List Char) : Option (Read Data) :=
  (words.find? fun w => w.1.isPrefixOf cs).map fun w =>
    ⟨w.2, position + w.1.length, cs.drop w.1.length⟩

mutual

/-- A value in which so many containers may lie inside each other. Every call takes away one of
`fuel`; twice the length of the text is enough. -/
def value : (fuel : Nat) → (depth : Nat) → (position : Nat) → List Char → Except Stop (Read Data)
  | 0, _, position, _ => .error (.at .value position)
  | _, _, position, [] => .error (.at .value position)
  | fuel + 1, depth, position, c :: rest =>
    if c == '"' then
      (string position (position + 1) rest).map fun r =>
        ⟨.text r.value, r.position, r.rest⟩
    else if c == '[' then
      match depth with
      | 0 => .error (.tooDeep .list)
      | depth + 1 =>
        let (inside, rest) := skipSpaces (position + 1) rest
        match rest with
        | ']' :: rest => .ok ⟨.list [], inside + 1, rest⟩
        | rest => (items fuel depth inside rest).map fun r => ⟨.list r.value, r.position, r.rest⟩
    else if c.toNat == 0x7B then
      match depth with
      | 0 => .error (.tooDeep .record)
      | depth + 1 =>
        let (inside, rest) := skipSpaces (position + 1) rest
        match rest with
        | d :: more =>
          if d.toNat == 0x7D then .ok ⟨.record [], inside + 1, more⟩
          else
            (fields fuel depth [] inside rest).map fun r => ⟨.record r.value, r.position, r.rest⟩
        | [] => .error (.at .name inside)
    else
      match word? position (c :: rest) with
      | some r => .ok r
      | none => number position (c :: rest)

/-- The items of a list from one item on, and the closing bracket. -/
def items : (fuel : Nat) → (depth : Nat) → (position : Nat) → List Char →
    Except Stop (Read (List Data))
  | 0, _, position, _ => .error (.at .value position)
  | fuel + 1, depth, position, cs => do
    let first ← value fuel depth position cs
    let (behind, rest) := skipSpaces first.position first.rest
    match rest with
    | ']' :: rest => .ok ⟨[first.value], behind + 1, rest⟩
    | ',' :: rest =>
      let (next, rest) := skipSpaces (behind + 1) rest
      let others ← items fuel depth next rest
      .ok { others with value := first.value :: others.value }
    | _ => .error (.at .comma behind)

/-- The fields of a record from one name on, and the closing brace; `known` are those before. -/
def fields : (fuel : Nat) → (depth : Nat) → (known : Fields) → (position : Nat) → List Char →
    Except Stop (Read Fields)
  | 0, _, _, position, _ => .error (.at .name position)
  | fuel + 1, depth, known, position, cs =>
    match cs with
    | '"' :: rest => do
      let name ← string position (position + 1) rest
      let (behind, rest) := skipSpaces name.position name.rest
      match rest with
      | ':' :: rest =>
        let (inside, rest) := skipSpaces (behind + 1) rest
        let content ← value fuel depth inside rest
        let known := Data.setField known name.value content.value
        let (behind, rest) := skipSpaces content.position content.rest
        match rest with
        | ',' :: rest =>
          let (next, rest) := skipSpaces (behind + 1) rest
          fields fuel depth known next rest
        | d :: rest =>
          if d.toNat == 0x7D then .ok ⟨known, behind + 1, rest⟩ else .error (.at .comma behind)
        | [] => .error (.at .comma behind)
      | _ => .error (.at .colon behind)
    | _ => .error (.at .name position)

end

/-- The place of a position: the lines begun until it, and the characters since the last line
end. -/
def lineColumn (cs : List Char) (position : Nat) : Nat × Nat :=
  (cs.take position).foldl (fun (line, column) c =>
    if c == '\n' then (line + 1, 1) else (line, column + 1)) (1, 1)

/-- The value of a text, or where and why reading stopped. -/
def document (cs : List Char) : Except Stop Data :=
  match cs with
  | '\uFEFF' :: _ => .error (.at .byteOrderMark 0)
  | cs => do
    let (start, rest) := skipSpaces 0 cs
    let r ← value (2 * cs.length + 4) maxDepth start rest
    match skipSpaces r.position r.rest with
    | (_, []) => .ok r.value
    | (position, _) => .error (.at .extra position)

/-- The value of a text, or why it has none. -/
def read (cs : List Char) : Except RobotBlocks.Fault (Except Fault Data) :=
  match document cs with
  | .ok value => .ok (.ok value)
  | .error (.tooDeep container) => .error (.tooDeep container.name)
  | .error (.digits count) => .ok (.error (.digits count))
  | .error (.at problem position) =>
    let (line, column) := lineColumn cs position
    .ok (.error (.at problem line column position))

end Json

end RobotBlocks
