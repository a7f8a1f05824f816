import RobotBlocks.View.Application

/-!
# The program

Starts the application and prints what its window shows. A project to open may be named on the
command line.
-/

namespace RobotBlocks

/-- Reads the raw value in the file at a path. -/
def readProject (path : String) : IO Window.FileContent := do
  if Folder.hasNull path then return .ok (.error (.unopened .nullInPath))
  try
    let bytes ← IO.FS.readBinFile path
    return readJson bytes.toList
  catch problem =>
    let fault : FileFault := match problem with
      | .inappropriateType _ 20 _ => .notDirectory path
      | .inappropriateType .. => .directory path
      | .invalidArgument .. => .tooLong path
      | _ => .missing path
    return .ok (.error (.unopened fault))

end RobotBlocks

open RobotBlocks in
/-- Opens the project that the first argument names, or the sample project. -/
def main (arguments : List String) : IO UInt32 := do
  let project ← arguments.head?.mapM fun path => return (path, ← readProject path)
  match Application.launch (0.0 : Float) project with
  | .error fault =>
    IO.eprintln fault.message
    return 1
  | .ok h =>
    let window := h.memory.memory
    for entry in window.log do
      IO.eprintln (entry.level.name ++ " - " ++ entry.message.toString)
    IO.println (Application.report window).toString
    return 0
