import RobotBlocks.Data

/-!
# Writing JSON

The text of a raw value in ASCII: every character outside is written as one code unit or a pair of
them, numbers as the shortest text that reads back, and numbers that are not finite as the words
`NaN`, `Infinity` and `-Infinity`. `Json.compact` writes one line, `Json.indented` a line for every
item, two blanks deeper than the brackets around it.
-/

namespace RobotBlocks

namespace Json

/-- A code unit behind a backslash. -/
def unitChars (n : Nat) : List Char := '\\' :: 'u' :: hexChars 4 n

/-- A character as it stands in a string. -/
def charChars (c : Char) : List Char :=
  if c == '"' || c == '\\' then ['\\', c]
  else if c == '\n' then ['\\', 'n']
  else if c == '\r' then ['\\', 'r']
  else if c == '\t' then ['\\', 't']
  else if c == '\x08' then ['\\', 'b']
  else if c == '\x0c' then ['\\', 'f']
  else
    let n := c.toNat
    if 32 ≤ n && n < 127 then [c]
    else if n < 0x10000 then unitChars n
    else
      unitChars (0xD800 + (n - 0x10000) / 0x400) ++ unitChars (0xDC00 + (n - 0x10000) % 0x400)

/-- A piece of a text as it stands in a string. -/
def pieceChars : Piece → List Char
  | .char c => charChars c
  | .half index => unitChars (0xD800 + index)

/-- A text as a string with its quotes. -/
def stringText (t : Text) : String :=
  String.ofList ('"' :: t.flatMap pieceChars ++ ['"'])

/-- A number. -/
def realText (x : Float) : String :=
  if x.isNaN then "NaN"
  else if x.isInf then (if x < 0.0 then "-Infinity" else "Infinity")
  else Float.shortestText x

mutual

/-- The text of a value on one line, without blanks. -/
def compact : Data → String
  | .null => "null"
  | .flag true => "true"
  | .flag false => "false"
  | .integer n => intText n
  | .real x => realText x
  | .text t => stringText t
  | .list items => "[" ++ ",".intercalate (compactItems items) ++ "]"
  | .record fields => "\x7b" ++ ",".intercalate (compactFields fields) ++ "\x7d"

/-- The texts of the items of a list. -/
def compactItems : List Data → List String
  | [] => []
  | item :: rest => compact item :: compactItems rest

/-- The texts of the fields of a record. -/
def compactFields : List (Text × Data) → List String
  | [] => []
  | (name, value) :: rest => (stringText name ++ ":" ++ compact value) :: compactFields rest

end

/-- A line end and the blanks of a level. -/
def lineAt (level : Nat) : String := String.ofList ('\n' :: List.replicate (2 * level) ' ')

/-- Lines between brackets, one level deeper than the brackets; nothing between the brackets if
there are none. -/
def bracketed (opening closing : String) (level : Nat) (lines : List String) : String :=
  if lines.isEmpty then opening ++ closing
  else
    opening ++ lineAt (level + 1) ++ ("," ++ lineAt (level + 1)).intercalate lines ++ lineAt level
      ++ closing

mutual

/-- The text of a value whose first line stands at the given level. -/
def indented (level : Nat) : Data → String
  | .null => "null"
  | .flag true => "true"
  | .flag false => "false"
  | .integer n => intText n
  | .real x => realText x
  | .text t => stringText t
  | .list items => bracketed "[" "]" level (indentedItems (level + 1) items)
  | .record fields => bracketed "\x7b" "\x7d" level (indentedFields (level + 1) fields)

/-- The lines of the items of a list. -/
def indentedItems (level : Nat) : List Data → List String
  | [] => []
  | item :: rest => indented level item :: indentedItems level rest

/-- The lines of the fields of a record. -/
def indentedFields (level : Nat) : List (Text × Data) → List String
  | [] => []
  | (name, value) :: rest =>
    (stringText name ++ ": " ++ indented level value) :: indentedFields level rest

end

end Json

end RobotBlocks
