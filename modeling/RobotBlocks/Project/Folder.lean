import RobotBlocks.Fault
import RobotBlocks.Json.Reader
import RobotBlocks.Project.Directory
import RobotBlocks.Text.Utf8

/-!
# Files

A folder is the working directory as far as projects and configurations are concerned: files without
folders among them. A path may also lead out of it, to the standard directories; what is not known
to be there and was not written there is not there. `Folder.read` and `Folder.write` follow a path,
and `Folder.readJson` reads the raw value in a file, which must be UTF-8; every line end in it
counts as a newline.

A path is followed name by name, so the first name that does not fit decides what is wrong with it:
one that is not there, that is a file although more names follow, or that is longer than names can
be.
-/

namespace RobotBlocks

/-- Why a file holds no raw value. -/
inductive FileProblem
  | unopened (fault : FileFault)
  | undecodable (fault : Utf8.Fault)
  | unreadable (fault : Json.Fault)
  deriving DecidableEq

/-- The wording of a file problem. -/
def FileProblem.message : FileProblem → String
  | .unopened fault => fault.message
  | .undecodable fault => fault.message
  | .unreadable fault => fault.message

/-- Files by their shortest paths from the working directory or from the root. -/
structure Folder where
  files : List (String × List UInt8)

namespace Folder

/-- The working directory without files. -/
def empty : Folder := ⟨[]⟩

/-- The working directory with one file. -/
def single (name : String) (bytes : List UInt8) : Folder := ⟨[(name, bytes)]⟩

/-- The bytes of the file at a shortest path. -/
def bytes? (f : Folder) (path : String) : Option (List UInt8) :=
  if Directory.devices.contains path then some []
  else
    match f.files.find? fun g => g.1 == path with
    | some g => some g.2
    | none =>
      (Directory.firstLines.find? fun g => g.1 == path).map fun g => g.2.toUTF8.toList

/-- The most bytes of a path. -/
def longestPath : Nat := 4095

/-- What a path leads to. -/
inductive Place
  | directory
  /-- A name in a directory, where a file may be or not, and whether a slash stands behind it. -/
  | name (place : Directory) (name : String) (closed : Bool)
  | nothing
  /-- It goes on behind a file. -/
  | behindFile
  /-- It goes on behind a name that is too long. -/
  | tooLong
  deriving DecidableEq

/-- What the rest of a path leads to from a directory. -/
def follow (f : Folder) : Directory → List String → Place
  | _, [] => .directory
  | d, part :: rest =>
    if part == "" || part == "." then follow f d rest
    else if part == ".." then follow f d.parent rest
    else
      match d.enter? part with
      | some inner => follow f inner rest
      | none =>
        if rest.all (· == "") then .name d part (!rest.isEmpty)
        else if (f.bytes? (d.pathOf part)).isSome then .behindFile
        else if d.isTooLong part then .tooLong
        else .nothing

/-- What a path leads to. -/
def place (f : Folder) (path : String) : Place :=
  if path.isEmpty then .nothing
  else if longestPath < path.utf8ByteSize then .tooLong
  else f.follow (if path.startsWith "/" then .root else .working) (path.splitOn "/")

/-- Whether the path holds a null character. -/
def hasNull (path : String) : Bool := path.toList.any fun c => c.toNat == 0

/-- The bytes of the file at a path. -/
def read (f : Folder) (path : String) : Except FileFault (List UInt8) :=
  if hasNull path then .error .nullInPath
  else
    match f.place path with
    | .directory => .error (.directory path)
    | .behindFile => .error (.notDirectory path)
    | .nothing => .error (.missing path)
    | .tooLong => .error (.tooLong path)
    | .name d name closed =>
      if d.isTooLong name then .error (.tooLong path)
      else
        match f.bytes? (d.pathOf name) with
        | some bytes => if closed then .error (.notDirectory path) else .ok bytes
        | none => .error (.missing path)

/-- The folder with a file written at a path; a name with a slash behind it is that of a
directory. -/
def write (f : Folder) (path : String) (bytes : List UInt8) : Except FileFault Folder :=
  if hasNull path then .error .nullInPath
  else
    match f.place path with
    | .directory => .error (.directory path)
    | .behindFile => .error (.notDirectory path)
    | .nothing => .error (.missing path)
    | .tooLong => .error (.tooLong path)
    | .name d name closed =>
      let file := d.pathOf name
      if closed then .error (.directory path)
      else if d.isTooLong name then .error (.tooLong path)
      else if d.isVirtual then .error (.missing path)
      else if file == Directory.fullDevice then .error .noSpace
      else .ok ⟨(file, bytes) :: f.files.filter fun g => g.1 != file⟩

end Folder

/-- The raw value that the bytes of a file hold, or why they hold none. -/
def readJson (bytes : List UInt8) : Except Fault (Except FileProblem Data) :=
  match Utf8.decode bytes with
  | .error fault => .ok (.error (.undecodable fault))
  | .ok cs =>
    match Json.read (plainNewlines cs) with
    | .error fault => .error fault
    | .ok (.error fault) => .ok (.error (.unreadable fault))
    | .ok (.ok value) => .ok (.ok value)

/-- The raw value in the file at a path, or why there is none. -/
def Folder.readJson (f : Folder) (path : String) : Except Fault (Except FileProblem Data) :=
  match f.read path with
  | .error fault => .ok (.error (.unopened fault))
  | .ok bytes => RobotBlocks.readJson bytes

end RobotBlocks
