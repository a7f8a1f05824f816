import RobotBlocks.Block.Coordinate
import RobotBlocks.Block.Kind
import RobotBlocks.Sorting.Runs

/-!
# Blocks

A program is a flat list of blocks; nesting is expressed by each block's list of children. A child
of a loop or a conditional is its body or its continuation: the slot that the editor recorded
decides, and without one a child that stands further right belongs to the body.

Blocks are read from raw values with patience: `Block.ofFields` fills in what is missing or odd,
and only an integer coordinate beyond the range of doubles makes it fail.
-/

namespace RobotBlocks

/-- Where a child of a container hangs. -/
inductive Slot
  /-- In the part that the container runs. -/
  | body
  /-- Behind the container. -/
  | next
  deriving DecidableEq, Repr

namespace Slot

/-- The name of a slot. -/
def name : Slot → String
  | body => "body"
  | next => "next"

/-- The slot that a raw value names, in any letter case. -/
def ofData? (value : Data) : Option Slot :=
  let key := value.shown.lower
  if key == "body" then some body else if key == "next" then some next else none

end Slot

/-- One node of a program. -/
structure Block where
  /-- The name by which other blocks refer to it. -/
  id : Text
  /-- The type name that the editor gave. -/
  type : Text
  /-- The part of the palette that it comes from. -/
  category : Text
  /-- How far right it stands. -/
  x : Coordinate
  /-- How far down it stands. -/
  y : Coordinate
  /-- What was filled in. -/
  inputs : Fields
  /-- The blocks that it claims, each once. -/
  children : List Text
  /-- The slots that the editor recorded for children. -/
  slots : List (Text × Slot)

namespace Block

/-- What the block does. -/
def kind (b : Block) : Kind := Kind.ofTypeName b.type

/-- Whether the block has a body. -/
def isContainer (b : Block) : Bool := b.kind.isContainer

/-- Reading order: from top to bottom, then from left to right, then by name. The first of the
three in which the blocks differ decides. -/
def precedes (a b : Block) : Bool :=
  if !a.y.agrees b.y then a.y.isLess b.y
  else if !a.x.agrees b.x then a.x.isLess b.x
  else decide (a.id < b.id)

/-- Blocks in reading order. -/
def inReadingOrder (blocks : List Block) : List Block := Sorting.sort precedes blocks

/-- The slot in which a child hangs. -/
def slotFor (b child : Block) : Slot :=
  if !b.isContainer then .next
  else
    match b.slots.find? fun s => s.1 == child.id with
    | some (_, slot) => slot
    | none => if b.x.isLess child.x then .body else .next

/-- The first of the named inputs that is filled in. -/
def input? (b : Block) (names : List Text) : Option Data :=
  names.findSome? fun name =>
    match Data.field? b.inputs name with
    | none | some .null => none
    | some value => some value

/-- The children that a raw list names, each once. -/
def childrenOf (value : Data) : List Text :=
  match value with
  | .list items =>
    items.foldl (fun known item =>
      if known.contains item.shown then known else known ++ [item.shown]) []
  | _ => []

/-- Sets the slot of a child: in its place if the child has one, at the end if not. -/
def setSlot (slots : List (Text × Slot)) (child : Text) (slot : Slot) :
    List (Text × Slot) :=
  if slots.any fun s => s.1 == child then
    slots.map fun s => if s.1 == child then (child, slot) else s
  else slots ++ [(child, slot)]

/-- The slots that a raw record gives; entries that name no slot are left out. -/
def slotsOf (value : Data) : List (Text × Slot) :=
  match value with
  | .record fields =>
    fields.foldl (fun slots f =>
      match Slot.ofData? f.2 with
      | some slot => setSlot slots f.1 slot
      | none => slots) []
  | _ => []

/-- The fields of a record, and none of any other value. -/
def inputsOf (value : Data) : Fields :=
  match value with
  | .record fields => fields
  | _ => []

/-- The name that a block without one gets from its place in the list. -/
def generatedId (place : Int) : Text := "block-" ++ intText place

/-- The block that a raw record describes, at the given place of the list. -/
def ofFields (fields : Fields) (place : Int) : Except Fault Block := do
  let at' := match Data.field fields "position" with
    | .record position => position
    | _ => fields
  let x ← Coordinate.ofData (Data.field at' "x")
  let y ← Coordinate.ofData (Data.field at' "y")
  return {
    id := match Data.field fields "id" with
      | .null => generatedId place
      | id => id.shown
    type := ((Data.field? fields "type").getD (.text "")).shown
    category := ((Data.field? fields "category").getD (.text "")).shown
    x, y
    inputs := inputsOf (Data.field fields "inputs")
    children := childrenOf (Data.field fields "children")
    slots := slotsOf ((Data.field fields "slots").orElse (Data.field fields "childSlots")) }

/-- The raw record that describes the block; without slots it has no field for them. -/
def toFields (b : Block) : Fields :=
  let stated : Fields :=
    [("id", .text b.id), ("type", .text b.type), ("category", .text b.category),
     ("x", b.x.toData), ("y", b.y.toData), ("inputs", .record b.inputs),
     ("children", .list (b.children.map .text))]
  let recorded : Fields := [("slots", .record (b.slots.map fun s => (s.1, .text s.2.name)))]
  if b.slots.isEmpty then stated else stated ++ recorded

/-- Whether two blocks are the same, undefined inputs being the same. -/
def same (a b : Block) : Bool :=
  a.id == b.id && a.type == b.type && a.category == b.category && a.x == b.x && a.y == b.y &&
    Data.sameFields a.inputs b.inputs && a.children == b.children && a.slots == b.slots

/-- The blocks that the records of a list describe, from the given place on. Other items are
skipped, but count as places. -/
def ofItems : (index : Nat) → List Data → Except Fault (List Block)
  | _, [] => .ok []
  | index, .record fields :: rest => do
    let block ← ofFields fields index
    let blocks ← ofItems (index + 1) rest
    return block :: blocks
  | index, _ :: rest => ofItems (index + 1) rest

/-- The list of blocks in a raw value: the value itself, or what a project has under `blocks`. -/
def itemsOf (value : Data) : List Data :=
  let value := match value with
    | .record fields => (Data.field fields "blocks").orElse (.list [])
    | value => value
  match value with
  | .list items => items
  | _ => []

/-- The blocks of a raw value. -/
def load (value : Data) : Except Fault (List Block) := ofItems 0 (itemsOf value)

/-- The first block with the given name. -/
def find? (blocks : List Block) (id : Text) : Option Block := blocks.find? fun b => b.id == id

end Block

end RobotBlocks
