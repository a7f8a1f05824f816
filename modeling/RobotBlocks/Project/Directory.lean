/-!
# Directories

The directories that a path can pass through: the working directory, which is one of the temporary
ones, and the standard directories above and beside it. A directory is entered by a name in it;
some names are links, which lead to a directory elsewhere. Of what the standard directories hold
besides, only devices and a few files are known.
-/

namespace RobotBlocks

/-- A directory. -/
inductive Directory
  /-- The working directory. -/
  | working
  /-- A directory by the names that lead to it from the root. -/
  | standard (names : List String)
  deriving DecidableEq, Repr

namespace Directory

/-- The directory in which all others are. -/
def root : Directory := standard []

/-- The standard directory at a path, written without its first slash. -/
def ofPath (path : String) : Directory := standard (path.splitOn "/")

/-- The directory above; the root is above itself. -/
def parent : Directory → Directory
  | working => ofPath "tmp"
  | standard names => standard names.dropLast

/-- The standard directories below the root. -/
def known : List Directory :=
  ["boot", "dev", "dev/pts", "dev/shm", "etc", "etc/default", "etc/opt", "etc/skel", "home",
   "media", "mnt", "opt", "proc", "proc/1", "proc/self", "proc/self/fd", "proc/self/fdinfo",
   "proc/self/net", "proc/self/ns", "proc/self/task", "proc/sys", "proc/sys/fs", "proc/sys/kernel",
   "proc/sys/net", "proc/sys/vm", "root", "run", "run/lock", "srv", "sys", "sys/block", "sys/bus",
   "sys/class", "sys/dev", "sys/devices", "sys/firmware", "sys/fs", "sys/kernel", "sys/module",
   "sys/power", "tmp", "usr", "usr/bin", "usr/games", "usr/include", "usr/lib", "usr/lib64",
   "usr/local", "usr/local/bin", "usr/local/etc", "usr/local/games", "usr/local/include",
   "usr/local/lib", "usr/local/sbin", "usr/local/share", "usr/local/share/man", "usr/local/src",
   "usr/sbin", "usr/share", "usr/share/doc", "usr/share/info", "usr/share/man", "usr/share/misc",
   "usr/share/zoneinfo", "usr/src", "var", "var/backups", "var/cache", "var/lib", "var/lib/misc",
   "var/local", "var/log", "var/mail", "var/opt", "var/spool", "var/tmp"].map ofPath

/-- The links among the standard directories, each with the directory that it leads to. -/
def links : List (Directory × Directory) :=
  [("bin", ofPath "usr/bin"), ("lib", ofPath "usr/lib"), ("lib64", ofPath "usr/lib64"),
   ("sbin", ofPath "usr/sbin"), ("dev/fd", ofPath "proc/self/fd"),
   ("proc/net", ofPath "proc/self/net"), ("proc/self/cwd", working), ("proc/self/root", root),
   ("usr/local/man", ofPath "usr/local/share/man"), ("var/lock", ofPath "run/lock"),
   ("var/run", ofPath "run"), ("var/spool/mail", ofPath "var/mail")].map fun l => (ofPath l.1, l.2)

/-- The directory that a name in this one leads to. -/
def enter? (d : Directory) (name : String) : Option Directory :=
  match d with
  | working => none
  | standard names =>
    let inner := standard (names ++ [name])
    match links.find? fun l => l.1 == inner with
    | some (_, target) => some target
    | none => if known.contains inner then some inner else none

/-- The path of a name in this directory, from the root or from the working directory on. -/
def pathOf (d : Directory) (name : String) : String :=
  match d with
  | working => name
  | standard names => "/" ++ "/".intercalate (names ++ [name])

/-- The files that are no files of a disk. Nothing is read from them, and what is written to them is
lost. -/
def devices : List String :=
  ["/dev/full", "/dev/null", "/dev/random", "/dev/tty", "/dev/urandom", "/dev/zero"]

/-- The device that takes nothing. -/
def fullDevice : String := "/dev/full"

/-- The standard files, each with its first line. -/
def firstLines : List (String × String) :=
  [("/etc/group", "root:x:0:\n"), ("/etc/hosts", "127.0.0.1\tlocalhost\n"),
   ("/etc/os-release", "NAME=\"Linux\"\n"), ("/etc/passwd", "root:x:0:0:root:/root:/bin/bash\n"),
   ("/proc/cpuinfo", "processor\t: 0\n"), ("/proc/meminfo", "MemTotal: 1048576 kB\n"),
   ("/proc/version", "Linux version 6.1\n")]

/-- Whether the directory is no directory of a disk but shows what runs. No file can be made in such
a directory, and no name is too long to be looked for there. -/
def isVirtual : Directory → Bool
  | standard (first :: _) => first == "proc" || first == "sys"
  | _ => false

/-- The most bytes of a name in a directory. -/
def longestName : Nat := 255

/-- Whether a name is longer than names can be in this directory. -/
def isTooLong (d : Directory) (name : String) : Bool :=
  !d.isVirtual && decide (longestName < name.utf8ByteSize)

end Directory

end RobotBlocks
