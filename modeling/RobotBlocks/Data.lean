import RobotBlocks.Number.Reading
import RobotBlocks.Text.Quoted

/-!
# Raw values

Projects, block programs and configuration files come as raw values: whatever a JSON text can
hold. An integer and a real are different values even when they are equal numbers, and a record
keeps its fields in the order in which they were given, since both show when a value is printed.

`Data.shown` is the text of a value in a message, `Data.inspected` the same with texts quoted.
-/

namespace RobotBlocks

/-- A raw value. -/
inductive Data
  /-- The absent value. -/
  | null
  /-- A truth value. -/
  | flag (b : Bool)
  /-- An integer of any size. -/
  | integer (n : Int)
  /-- A double. -/
  | real (x : Float)
  /-- A text. -/
  | text (t : Text)
  /-- A list of values. -/
  | list (items : List Data)
  /-- Named values, in order. -/
  | record (fields : List (Text × Data))

instance : Inhabited Data := ⟨.null⟩

/-- The fields of a record. -/
abbrev Fields := List (Text × Data)

namespace Data

mutual

/-- Whether two values are the same: equal in kind and content, undefined numbers being the same
and zeros of different sign not. -/
def same : Data → Data → Bool
  | .null, .null => true
  | .flag a, .flag b => a == b
  | .integer a, .integer b => a == b
  | .real a, .real b => decide (a = b)
  | .text a, .text b => a == b
  | .list a, .list b => sameItems a b
  | .record a, .record b => sameFields a b
  | _, _ => false

/-- Whether two lists are the same, item by item. -/
def sameItems : List Data → List Data → Bool
  | [], [] => true
  | a :: as, b :: bs => same a b && sameItems as bs
  | _, _ => false

/-- Whether two records are the same, field by field. -/
def sameFields : List (Text × Data) → List (Text × Data) → Bool
  | [], [] => true
  | (k, a) :: as, (l, b) :: bs => k == l && same a b && sameFields as bs
  | _, _ => false

end

/-- The name of a value's kind in messages. -/
def kindName : Data → String
  | .null => "NoneType"
  | .flag _ => "bool"
  | .integer _ => "int"
  | .real _ => "float"
  | .text _ => "str"
  | .list _ => "list"
  | .record _ => "dict"

/-- Whether the value is the absent one. -/
def isNull : Data → Bool
  | .null => true
  | _ => false

/-- Whether the value counts as given: it is neither absent, false, zero nor empty. -/
def isGiven : Data → Bool
  | .null => false
  | .flag b => b
  | .integer n => n != 0
  | .real x => !(x == 0.0)
  | .text t => !t.isEmpty
  | .list items => !items.isEmpty
  | .record fields => !fields.isEmpty

/-- The value if it counts as given, and the other one if not. -/
def orElse (a b : Data) : Data := if a.isGiven then a else b

/-- What is given under a name. -/
def field? {α : Type} (fields : List (Text × α)) (name : Text) : Option α :=
  (fields.find? fun f => f.1 == name).map (·.2)

/-- The field of a record with the given name, or the absent value. -/
def field (fields : Fields) (name : Text) : Data := (field? fields name).getD .null

/-- The fields with one of them set: in its place if the name is there, at the end if not. -/
def setField {α : Type} (fields : List (Text × α)) (name : Text) (value : α) : List (Text × α) :=
  if fields.any fun f => f.1 == name then
    fields.map fun f => if f.1 == name then (f.1, value) else f
  else fields ++ [(name, value)]

/-- The parts of a value that has some: the items of a list, the characters of a text, the names of
a record. -/
def parts? : Data → Option (List Data)
  | .list items => some items
  | .text t => some (t.map fun p => .text [p])
  | .record fields => some (fields.map fun f => .text f.1)
  | _ => none

mutual

/-- The text of a value with the texts in it quoted. How deep the value nests has no limit here: a
value that nests deeper than could be followed is refused by the reader. -/
def inspected : Data → String
  | .null => "None"
  | .flag true => "True"
  | .flag false => "False"
  | .integer n => intText n
  | .real x => Float.shortestText x
  | .text t => quoted t
  | .list items => "[" ++ ", ".intercalate (inspectedItems items) ++ "]"
  | .record fields => "\x7b" ++ ", ".intercalate (inspectedFields fields) ++ "\x7d"

/-- The texts of the items of a list. -/
def inspectedItems : List Data → List String
  | [] => []
  | item :: rest => inspected item :: inspectedItems rest

/-- The texts of the fields of a record. -/
def inspectedFields : List (Text × Data) → List String
  | [] => []
  | (name, value) :: rest => (quoted name ++ ": " ++ inspected value) :: inspectedFields rest

end

/-- The text of a value: a text is its own. As in `inspected`, its nesting has no limit. -/
def shown : Data → Text
  | .text t => t
  | value => inspected value

end Data

end RobotBlocks
