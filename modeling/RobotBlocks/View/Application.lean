import RobotBlocks.View.Window

/-!
# The application

The application opens its window, and in it the project that its command line names, if it names
one.
-/

namespace RobotBlocks

namespace Application

/-- The name of the application. -/
def name : String := "Block Program Simulator"

/-- The path that a command line names; a command line begins with the name of the program. -/
def path? : List String → Option String
  | _ :: path :: _ => some path
  | _ => none

variable {R : Type} [Scalar R]

/-- Opens the project at a path in the open window. -/
def openNamed (path : String) (content : Window.FileContent) : Action R Unit := do
  Window.note .info ("Opening " ++ path)
  Window.openProject path content

/-- The window after the application has started, with the project that it was told to open: its
path, and what was read there. -/
def launch (clock : R) (project : Option (String × Window.FileContent)) :
    Except Fault (WindowHost R) := do
  let h ← Window.start clock
  match project with
  | none => return h
  | some (path, content) =>
    match (openNamed path content).run h with
    | .ok _ h => return h
    | .error fault _ => throw fault

/-- What the window shows, as plain text. -/
def report (w : Window R) : Text :=
  let panes : List Text := [w.code, w.statistics, w.warnings, w.pose, w.status]
  let console : List Text := if w.console.isEmpty then [] else ["\n".intercalate w.console]
  ("\n\n" : Text).intercalate (panes ++ console)

end Application

end RobotBlocks
