import RobotBlocks.Fault

/-!
# Logging

Loggers have dotted names. Setting one up gives it a level and an outlet of its own, after which
nothing it says is passed on to the loggers above it. A record is written if the level in force lets
it through: the logger's own level, or the one of the nearest logger above that has one.

Which logger is above another one is settled when a logger is first spoken of, by its name and the
loggers that there are then; the root logger is above all others.
-/

namespace RobotBlocks

namespace Log

/-- The importance of a record. -/
inductive Level
  | debug
  | info
  | warning
  | error
  | critical
  deriving DecidableEq, Repr

/-- The name of a level. -/
def Level.name : Level → String
  | .debug => "DEBUG"
  | .info => "INFO"
  | .warning => "WARNING"
  | .error => "ERROR"
  | .critical => "CRITICAL"

/-- The rank of a level: greater is more important. -/
def Level.rank : Level → Nat
  | .debug => 10
  | .info => 20
  | .warning => 30
  | .error => 40
  | .critical => 50

/-- A record: its level and what it says. -/
structure Entry where
  level : Level
  message : Text
  deriving DecidableEq, Repr

/-- The level of a name. -/
def Level.ofName? (name : String) : Option Level :=
  match name with
  | "WARN" => some .warning
  | "FATAL" => some .critical
  | name => [Level.debug, .info, .warning, .error, .critical].find? fun l => l.name == name

/-- The rank of records that are never written; as the rank of a logger it leaves the choice to
the loggers above. -/
def noRank : Nat := 0

/-- The format of a line of the log as it would be without any setting, quoted. -/
def plainFormat : String := "'%(levelname)s:%(name)s:%(message)s'"

/-- The table of the ways in which such a format can be written. -/
def formats : String :=
  "\x7b'%': (<class 'logging.PercentStyle'>, " ++ plainFormat ++
    "), '\x7b': (<class 'logging.StrFormatStyle'>, " ++
    "'\x7blevelname\x7d:\x7bname\x7d:\x7bmessage\x7d'), " ++
    "'$': (<class 'logging.StringTemplateStyle'>, " ++
    "'$\x7blevelname\x7d:$\x7bname\x7d:$\x7bmessage\x7d')\x7d"

/-- The rank that a setting asks for, in any letter case; a setting that names nothing asks for
`INFO`. The names of formats are known too, but they are no levels. -/
def rankOf (setting : String) : Except Fault Nat :=
  match upper setting with
  | "DEBUG" => .ok 10
  | "WARNING" | "WARN" => .ok 30
  | "ERROR" => .ok 40
  | "CRITICAL" | "FATAL" => .ok 50
  | "NOTSET" => .ok noRank
  | "BASIC_FORMAT" => .error (.unknownLevel plainFormat)
  | "_STYLES" => .error (.noLevel formats)
  | _ => .ok 20

/-- The setting of a logger that is given none. -/
def defaultSetting : String := "INFO"

/-- A logger. -/
structure Logger where
  name : String
  /-- The logger above; only the root has none. -/
  parent : Option String
  /-- The rank of its own level. -/
  rank : Nat
  /-- Whether it has an outlet of its own. -/
  isSetUp : Bool
  deriving DecidableEq, Repr

/-- The name of the root logger. -/
def rootName : String := "root"

/-- The name of a logger: the empty one stands for the root. -/
def properName (name : String) : String := if name.isEmpty then rootName else name

/-- The loggers that were spoken of. -/
abbrev Registry := List Logger

namespace Registry

/-- The root alone. -/
def start : Registry := [⟨rootName, none, 30, false⟩]

/-- The logger of a name. -/
def find? (r : Registry) (name : String) : Option Logger := List.find? (fun l => l.name == name) r

/-- The parts of a name, listed with its last character first, that end before a dot. A dot right
before such a part's end is passed over. -/
def partsBefore : (fuel : Nat) → List Char → List (List Char)
  | 0, _ => []
  | fuel + 1, cs =>
    match cs.dropWhile (· != '.') with
    | _ :: c :: rest => (c :: rest) :: partsBefore fuel rest
    | _ => []

/-- The names above a name, nearest first. -/
def namesAbove (name : String) : List String :=
  (partsBefore name.length name.toList.reverse).map fun part => String.ofList part.reverse

/-- The registry with a logger of the given name, which is put between those above and below it.
Loggers below keep a parent whose name begins like the new one. -/
def add (r : Registry) (name : String) : Registry :=
  if (r.find? name).isSome then r
  else
    let parent := ((namesAbove name).find? fun n => (r.find? n).isSome).getD rootName
    let below (l : Logger) : Bool :=
      (namesAbove l.name).contains name && !l.parent.any fun p => p.startsWith name
    (r.map fun l => if below l then { l with parent := some name } else l) ++
      [⟨name, some parent, noRank, false⟩]

/-- The logger of a name and those above it, nearest first. `fuel` bounds their number. -/
def lineage (r : Registry) : (fuel : Nat) → (name : String) → List Logger
  | 0, _ => []
  | fuel + 1, name =>
    match r.find? name with
    | some l => l :: (l.parent.map (lineage r fuel)).getD []
    | none => []

/-- The rank in force for a logger. -/
def rankInForce (r : Registry) (name : String) : Nat :=
  (((r.lineage r.length name).map (·.rank)).find? (· != noRank)).getD noRank

/-- What is written when a logger is told something: one line at its own outlet, or else at the
nearest one above. -/
def output (r : Registry) (name : String) (e : Entry) : Text :=
  if r.rankInForce name ≤ e.level.rank && (r.lineage r.length name).any (·.isSetUp) then
    name ++ " - " ++ e.level.name ++ " - " ++ e.message ++ "\n"
  else ""

end Registry

/-- Sets a logger up. One that is given no level is still spoken of from then on. -/
def setUp (name setting : String) : EStateM Fault Registry Unit := do
  modify fun r => r.add name
  match rankOf setting with
  | .error fault => throw fault
  | .ok rank =>
    modify fun r => r.map fun l => if l.name == name then { l with rank, isSetUp := true } else l

end Log

end RobotBlocks
