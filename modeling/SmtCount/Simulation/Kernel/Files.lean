import SmtCount.Simulation.Kernel.Program
import SmtCount.Table

/-!
# Files

The files that programs see: a tree of directories with devices and executables in it, and the files
that they make themselves.

## Main definitions

* `Node` — what there is in a directory.
* `FileTree` — all files, by their paths.
* `FileTree.locate` — follows a path from a directory.
-/

namespace SmtCount.Simulation.Kernel

/-- The names from the root to a file. -/
abbrev Path := List Bytes

/-- What there is in a directory. -/
inductive Node
  | directory
  | executable
  /-- A file that a program has made, by its number. -/
  | file (number : Nat)
  /-- A device that is empty and takes everything. -/
  | null
  /-- A device that gives zeros and takes everything. -/
  | zero
  /-- A device that gives zeros and takes nothing. -/
  | full
  /-- What a descriptor of the process stands for. -/
  | descriptor (fd : Nat)
  /-- Another name of a directory. -/
  | link (target : Path)
  /-- A device that is not there. -/
  | absent

/-- All files, by their paths; the root is not among them. -/
abbrev FileTree := Table Path Node

namespace FileTree

/-- A path from its names, separated by slashes. -/
def pathOf (path : Bytes) : Path :=
  (path.splitOn '/').filter (· ≠ [])

/-- A path as text. -/
def pathText (path : Path) : Bytes :=
  if path.isEmpty then ['/'] else path.flatMap ('/' :: ·)

/-- The directories that there are. -/
def directories : List String :=
  ["dev", "etc", "home", "mnt", "opt", "proc", "root", "run", "srv", "sys", "tmp", "usr", "usr/bin",
    "usr/lib", "usr/local", "usr/local/bin", "usr/sbin", "usr/share", "var", "var/tmp"]

/-- The devices that there are, and other names for what there is. -/
def special : List (String × Node) :=
  [("bin", .link ["usr".toList, "bin".toList]), ("sbin", .link ["usr".toList, "sbin".toList]),
    ("lib", .link ["usr".toList, "lib".toList]), ("dev/null", .null), ("dev/zero", .zero),
    ("dev/full", .full), ("dev/tty", .absent), ("dev/stdin", .descriptor 0),
    ("dev/stdout", .descriptor 1), ("dev/stderr", .descriptor 2), ("dev/fd", .directory),
    ("proc/self", .directory), ("proc/self/fd", .directory)]

/-- The names of the descriptors. -/
def descriptors : List (Path × Node) :=
  (List.range 10).flatMap fun fd =>
    ["dev/fd/", "proc/self/fd/"].map fun directory =>
      (pathOf (directory.toList ++ decimal fd), Node.descriptor fd)

/-- A tree with some executables, and with a directory to work in. -/
def standard (executables : List String) (directory : Path) : FileTree :=
  .ofRows (directories.map (fun d => (pathOf d.toList, Node.directory)) ++
    special.map (fun (p, node) => (pathOf p.toList, node)) ++ descriptors ++
    executables.map (fun name => (["usr".toList, "bin".toList, name.toList], Node.executable)) ++
    (List.range directory.length).map fun n => (directory.take (n + 1), Node.directory))

/-- What there is at a path. -/
def node? (t : FileTree) (path : Path) : Option Node :=
  if path.isEmpty then some .directory else t.get? path

/-- Follows names from a directory.  All but the last must be there, and must be directories. -/
def follow (t : FileTree) : Path → List Bytes → Except Fault Path
  | directory, [] => .ok directory
  | directory, name :: names =>
    match t.node? directory with
    | some .directory =>
      if name = [] || name = ['.'] then follow t directory names
      else if name = ['.', '.'] then follow t directory.dropLast names
      else
        match t.get? (directory ++ [name]) with
        | some (.link target) => follow t target names
        | _ => follow t (directory ++ [name]) names
    | some _ => .error .notDirectory
    | none => .error .missing

/-- Follows a path from a directory, or from the root.  A slash at the end asks for a directory. -/
def locate (t : FileTree) (directory : Path) (path : Bytes) : Except Fault Path :=
  if path.isEmpty then .error .missing
  else
    let start := if path.head? = some '/' then [] else directory
    t.follow start (path.splitOn '/')

/-- The names in a directory. -/
def names (t : FileTree) (directory : Path) : List Bytes :=
  t.keys.filterMap fun path =>
    if path.length = directory.length + 1 && directory.isPrefixOf path then path.getLast? else none

end FileTree

end SmtCount.Simulation.Kernel
