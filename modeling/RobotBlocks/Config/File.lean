import RobotBlocks.Config.Basic
import RobotBlocks.Data.Comparison
import RobotBlocks.Json.Writer
import RobotBlocks.Project.Folder

/-!
# Configuration files

A configuration is saved as a JSON record of its fields. Reading one back checks only the names: the
values are taken as the file gives them, so what is read are settings with raw values, `Settings`,
and not yet a configuration. One of them is a tuple, the agent size. JSON has no tuples: it is saved
as a list of its parts, and made a tuple again when it is read.

What a file holds need not be a record. It is asked for an agent size first, which is replaced by
the tuple of its parts, and what is a record of settings then replaces those of the default
configuration (`Settings.ofData`). A file that cannot be read, or that is refused on the way, gives
the settings of the default configuration. Only a file that nests too deep makes the whole call
fail.
-/

namespace RobotBlocks

/-- What a field of a configuration holds. -/
inductive Setting
  /-- A raw value. -/
  | raw (value : Data)
  /-- A tuple of raw values. It is not equal to the list of the same values. -/
  | tuple (items : List Data)

/-- The fields of a configuration, in the order of their declaration. -/
abbrev Settings := List (Text × Setting)

namespace Config

/-- The settings of a configuration. -/
def settings (c : Config Float) : Settings :=
  [("name", .raw (.text c.name)),
   ("agent_size", .tuple (c.agentSize.map .real)),
   ("ground_height", .raw (.real c.groundHeight)),
   ("initial_heading", .raw (.real c.initialHeading)),
   ("move_duration_ms", .raw (.real c.moveDuration)),
   ("turn_duration_ms", .raw (.real c.turnDuration)),
   ("wait_ms_per_second", .raw (.real c.waitPerSecond)),
   ("units_per_step", .raw (.real c.unitsPerStep)),
   ("min_speed", .raw (.real c.minSpeed)),
   ("max_speed", .raw (.real c.maxSpeed)),
   ("default_speed", .raw (.real c.defaultSpeed)),
   ("default_inputs", .raw (.record (c.defaultInputs.map fun d => (d.1, .real d.2)))),
   ("max_repeat", .raw (.integer c.maxRepeat)),
   ("max_block_visits", .raw (.integer c.maxVisits)),
   ("tick_interval_ms", .raw (.integer c.tickInterval))]

end Config

namespace Setting

/-- The parts of a setting that has some. -/
def parts? : Setting → Option (List Data)
  | .raw value => value.parts?
  | .tuple items => some items

/-- The name of a setting's kind in messages. -/
def kindName : Setting → String
  | .raw value => value.kindName
  | .tuple _ => "tuple"

/-- The raw value that is written for a setting: a tuple is written as a list. -/
def written : Setting → Data
  | .raw value => value
  | .tuple items => .list items

/-- Whether two settings are equal, undefined numbers being equal. A tuple is no list. -/
def isEqual : Setting → Setting → Bool
  | .raw a, .raw b => Data.isEqual a b
  | .tuple as, .tuple bs => Data.areEqual as bs
  | _, _ => false

end Setting

namespace Settings

/-- The settings of the default configuration. -/
def default : Settings := (Config.robot : Config Float).settings

/-- The record that is written for settings. -/
def written (s : Settings) : Fields := s.map fun f => (f.1, f.2.written)

/-- Where a record of raw values is expected, settings stand for what is written for them. -/
instance : Coe Settings Fields := ⟨written⟩

/-- The fields of a record as settings, all of them raw. -/
def ofRaw (fields : Fields) : Settings := fields.map fun f => (f.1, .raw f.2)

/-- Why a raw value gives no settings. All of this is one kind of error, which reading catches. -/
inductive Refusal
  /-- Nothing is in a value of this kind, so it cannot be asked for an agent size. -/
  | holdsNothing
  /-- The value has something of the name in it, but no fields. -/
  | noFields
  /-- The agent size has no parts. -/
  | noParts
  /-- The value is no record of settings. -/
  | noRecord
  /-- A field is no setting. -/
  | unknown (name : Text)
  deriving DecidableEq

/-- Whether the name is a part of the text. -/
def occursIn (name : Text) : Text → Bool
  | [] => name.isEmpty
  | p :: rest => name.isPrefixOf (p :: rest) || occursIn name rest

/-- Whether a name is in a raw value: among the fields of a record, the items of a list or the parts
of a text. Other values cannot be asked. -/
def holds? (name : Text) : Data → Option Bool
  | .text t => some (occursIn name t)
  | .list items => some (items.any fun item =>
      match item with
      | .text t => t == name
      | _ => false)
  | .record fields => some (fields.any fun f => f.1 == name)
  | _ => none

/-- The fields of a raw value as settings, with the tuple of its parts in the place of the agent size,
if there is one. -/
def withTuple (value : Data) : Except Refusal Settings :=
  match holds? "agent_size" value, value with
  | none, _ => .error .holdsNothing
  | some true, .record fields =>
    match (Data.field fields "agent_size").parts? with
    | some parts => .ok (Data.setField (ofRaw fields) "agent_size" (.tuple parts))
    | none => .error .noParts
  | some true, _ => .error .noFields
  | some false, .record fields => .ok (ofRaw fields)
  | some false, _ => .error .noRecord

/-- The settings with another one in its place, if there is one of its name. -/
def withSetting (settings : Settings) (f : Text × Setting) : Except Refusal Settings :=
  if settings.any fun s => s.1 == f.1 then .ok (Data.setField settings f.1 f.2)
  else .error (.unknown f.1)

/-- The settings that a raw value describes: the default ones with those of the value in their
places, one after the other. -/
def ofData (value : Data) : Except Refusal Settings := do
  let stated ← withTuple value
  stated.foldlM withSetting default

/-- The settings in the file at a path, or the default ones. -/
def load (f : Folder) (path : String) : Except Fault Settings :=
  (f.readJson path).map fun content =>
    match content with
    | .ok value =>
      match ofData value with
      | .ok settings => settings
      | .error _ => default
    | .error _ => default

/-- The settings as they are saved, with the list of its parts in the place of the agent size. -/
def withList (s : Settings) : Except Fault Settings :=
  let size := (Data.field? s "agent_size").getD (.raw .null)
  match size.parts? with
  | some parts => .ok (Data.setField s "agent_size" (.raw (.list parts)))
  | none => .error (.notIterable size.kindName)

/-- The text of a file with these settings. -/
def text (s : Settings) : String := Json.indented 0 (.record s)

/-- The folder with these settings in the file at a path. -/
def save (f : Folder) (path : String) (s : Settings) : Except Fault Folder := do
  let saved ← withList s
  match f.write path saved.text.toUTF8.toList with
  | .ok f => .ok f
  | .error fault => .error (.file fault)

end Settings

mutual

/-- Whether no undefined number occurs in a raw value. -/
def Data.isDefined : Data → Bool
  | .real x => !x.isNaN
  | .list items => areItemsDefined items
  | .record fields => areFieldsDefined fields
  | _ => true

/-- Whether no undefined number occurs in the items of a list. -/
def Data.areItemsDefined : List Data → Bool
  | [] => true
  | item :: rest => item.isDefined && Data.areItemsDefined rest

/-- Whether no undefined number occurs in the fields of a record. -/
def Data.areFieldsDefined : List (Text × Data) → Bool
  | [] => true
  | f :: rest => f.2.isDefined && Data.areFieldsDefined rest

end

/-- Whether no undefined number occurs in a setting. -/
def Setting.isDefined : Setting → Bool
  | .raw value => value.isDefined
  | .tuple items => Data.areItemsDefined items

namespace Settings

/-- Whether two settings are equal, undefined numbers being equal. -/
def isEqual (a b : Settings) : Bool :=
  a.length == b.length && a.all fun f => (Data.field? b f.1).any f.2.isEqual

/-- Whether two settings agree in every number; an undefined number agrees with none. -/
def agrees (a b : Settings) : Bool := isEqual a b && a.all fun f => f.2.isDefined

end Settings

end RobotBlocks
