import RobotBlocks.Block.Graph

/-!
# The code of a program

A program shown as readable code. The order of the blocks and the parts of containers are those that
compiling uses, but loops and conditionals are printed and not unrolled. The blocks are handled from
a stack of tasks; the end of every body is a task of its own, which puts a line that does nothing
into a body without lines, and so is leaving a block when all that hangs off it is done. A block that
has not been left yet is passed over.

`Code.lines` are the emitted lines with their levels, `Code.text` the whole text.
-/

namespace RobotBlocks

namespace Code

/-- A line of code: its level counts the indentations before the text. -/
structure Line where
  level : Nat
  text : Text
  deriving DecidableEq, Repr

/-- The text of a line behind its indentation. -/
def Line.render (l : Line) : Text := List.replicate (4 * l.level) (.char ' ') ++ l.text

/-- A number as code: whole numbers without a point. A missing number, or a truth value in its
place, gives way to the default; what is no number at all is shown as a quoted text. -/
def numberText (value : Option Data) (default : Int) : Except Fault String :=
  let value : Data := match value with
    | none | some .null | some (.flag _) => .integer default
    | some value => value
  match value.toNumber with
  | .ok x =>
    let b := Binary.ofFloat x
    .ok (if b.isWhole then intText (b.truncate?.getD 0) else Float.shortestText x)
  | .error .integerTooLarge => .error .integerTooLarge
  | .error _ => .ok (quoted value.shown)

/-- The name of an object as a string literal; backslashes and quotes are escaped. -/
def objectText (value : Option Data) : Text :=
  let text : Text := match value with
    | none | some .null => "wall"
    | some value => value.shown
  "\"" ++ text.flatMap (fun p => if p == .char '\\' || p == .char '"' then [.char '\\', p] else [p])
    ++ "\""

/-- The guard of a conditional as it was written; `True` stands for a missing or blank one. -/
def guardText (value : Option Data) : Text :=
  let text : Text := match value with
    | none | some .null => ""
    | some value => value.shown.trim
  if text.isEmpty then "True" else text

/-- A call with one argument. -/
def call (name argument : Text) : Text := name ++ "(" ++ argument ++ ")"

/-- The text of the line that a block emits, if its kind has one. -/
def textFor (b : Block) : Except Fault (Option Text) :=
  match b.kind with
  | .moveForward => (numberText (b.input? ["steps", "distance"]) 10).map fun n =>
    some (call "robot.move_forward" n)
  | .moveBackward => (numberText (b.input? ["steps", "distance"]) 10).map fun n =>
    some (call "robot.move_backward" n)
  | .turnLeft => (numberText (b.input? ["degrees", "angle"]) 90).map fun n =>
    some (call "robot.turn_left" n)
  | .turnRight => (numberText (b.input? ["degrees", "angle"]) 90).map fun n =>
    some (call "robot.turn_right" n)
  | .wait => (numberText (b.input? ["seconds", "duration"]) 1).map fun n =>
    some (call "time.sleep" n)
  | .loop => (numberText (b.input? ["times", "count"]) 10).map fun n =>
    some (call "for i in range" n ++ ":")
  | .conditional => .ok (some ("if " ++ guardText (b.input? ["condition"]) ++ ":"))
  | .sensorQuery =>
    let object := objectText (b.input? ["object"])
    .ok (some (call (if b.type.trim.lower == "distance" then "robot.distance_to"
      else "robot.is_touching") object))
  | .startEvent | .unknown => .ok none

/-- What is still to do. -/
inductive Task
  /-- Handle a block at a level. -/
  | block (b : Block) (level : Nat)
  /-- End a body at a level, begun when there were so many lines. -/
  | bodyEnd (level start : Nat)
  /-- Leave a block: all that hangs off it is done. -/
  | leave (id : Text)

/-- The tasks that follow the line of a block: its body, if its kind has one, its continuation, and
leaving it. `count` is the number of lines so far. -/
def tasksAfter (g : Graph) (b : Block) (level count : Nat) : List Task :=
  let following := ((g.inSlot b .next).map fun child => Task.block child level) ++ [.leave b.id]
  if b.isContainer then
    ((g.inSlot b .body).map fun child => Task.block child (level + 1)) ++
      .bodyEnd (level + 1) count :: following
  else following

/-- How far the lines of a program have been emitted. -/
structure Emission where
  tasks : List Task
  /-- The names of the blocks that have not been left yet. -/
  path : List Text
  /-- The lines so far, first to last. -/
  lines : List Line

namespace Emission

/-- Nothing is emitted yet of a program with the given roots. -/
def ofRoots (roots : List Block) : Emission := ⟨roots.map fun b => Task.block b 1, [], []⟩

/-- Does the first task, if there is one. -/
def step (g : Graph) (e : Emission) : Except Fault Emission :=
  match e.tasks with
  | [] => .ok e
  | .leave id :: tasks => .ok { e with tasks, path := e.path.filter (· != id) }
  | .bodyEnd level start :: tasks =>
    .ok { e with
      tasks, lines := if e.lines.length == start then e.lines ++ [⟨level, "pass"⟩] else e.lines }
  | .block b level :: tasks =>
    if e.path.contains b.id then .ok { e with tasks }
    else do
      let text ← textFor b
      let lines := e.lines ++ (text.map (Line.mk level)).toList
      return ⟨tasksAfter g b level lines.length ++ tasks, b.id :: e.path, lines⟩

/-- Does so many tasks, or fewer if no more are left. -/
def run (g : Graph) : (count : Nat) → Emission → Except Fault Emission
  | 0, e => .ok e
  | count + 1, e => if e.tasks.isEmpty then .ok e else e.step g >>= run g count

end Emission

/-- The lines that the blocks of a graph emit; a program without any does nothing. A block makes at
most three tasks: to handle it, to end its body and to leave it. -/
def lines (g : Graph) : Except Fault (List Line) := do
  let e ← (Emission.ofRoots g.topLevel).run g (3 * g.blocks.length)
  return if e.lines.isEmpty then [⟨1, "pass"⟩] else e.lines

/-- What stands before the lines of a program. -/
def opening : List Text :=
  ["# Generated from visual blocks", "import robot", "import time", "", "def main():"]

/-- What stands behind the lines of a program. -/
def ending : List Text := ["", "if __name__ == \"__main__\":", "    main()"]

/-- The code of a list of blocks. -/
def ofBlocks (blocks : List Block) : Except Fault Text := do
  let lines ← lines (Graph.build blocks .empty).1
  return ("\n" : Text).intercalate (opening ++ lines.map Line.render ++ ending)

/-- The code of a raw program. -/
def ofData (program : Data) : Except Fault Text := Block.load program >>= ofBlocks

end Code

end RobotBlocks
