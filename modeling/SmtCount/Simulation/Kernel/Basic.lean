import SmtCount.Simulation.Kernel.Files
import SmtCount.Simulation.Kernel.Pipe

/-!
# Processes

The processes that there are, with what their descriptors stand for.  Descriptors of different
processes can stand for the same end of a pipe.  Who reads from a pipe comes to its end when no
descriptor is left to write to it, and who writes to it fails when none is left to read from it; ends
can also be held from outside.

## Main definitions

* `Handle` — what a descriptor stands for.
* `Process`, `System` — one process, and all of them with what they share.
* `System.readFrom`, `System.writeTo`, `System.openAt` — the calls on files.
* `System.terminate`, `System.deliver` — how a process ends, and what signals do.
-/

namespace SmtCount.Simulation.Kernel

/-- What a descriptor stands for. -/
inductive Handle
  | null
  | zero
  | full
  | directory
  /-- An opened file, by its number. -/
  | file (number : Nat)
  /-- The end of a pipe to read from. -/
  | readEnd (pipe : Nat)
  /-- The end of a pipe to write to. -/
  | writeEnd (pipe : Nat)
  deriving DecidableEq

/-- A file as it was opened; it is read and written from one place on. -/
structure Opened where
  number : Nat
  place : Nat := 0
  atEnd : Bool := false

/-- A process. -/
structure Process where
  program : Program
  /-- When the next call takes effect. -/
  due : Nat
  /-- Does the next call wait for something that has not happened? -/
  waiting : Bool := false
  files : Table Nat Handle := {}
  directory : Path := []
  /-- Who may ask for the status; no process has the number 0. -/
  parent : Nat := 0
  /-- The process that began the group it belongs to. -/
  group : Nat := 0
  /-- The status of a process that has ended. -/
  status : Option Nat := none
  reactions : Table Nat Reaction := {}
  /-- The signals that have arrived and are noted. -/
  noted : List Nat := []

/-- All processes, and what they share. -/
structure System where
  /-- The nanoseconds that have passed. -/
  now : Nat := 0
  processes : Table Nat Process := {}
  pipes : Table Nat Pipe := {}
  tree : FileTree := {}
  contents : Table Nat Bytes := {}
  opened : Table Nat Opened := {}
  /-- The ends of pipes that are held from outside. -/
  outside : List Handle := []
  /-- The next number that stands for nothing yet. -/
  fresh : Nat := 1000

namespace System

variable (k : System)

/-- Is a handle held by a process or from outside? -/
def holds (h : Handle) : Bool :=
  k.outside.contains h || k.processes.rows.any fun (_, p) => p.files.rows.any fun r => r.2 == h

/-- Forgets pipes that no one holds. -/
def tidy : System :=
  { k with pipes := ⟨k.pipes.rows.filter fun r => k.holds (.readEnd r.1) || k.holds (.writeEnd r.1)⟩ }

/-- Makes a pipe; gives its number. -/
def addPipe : Nat × System :=
  (k.fresh, { k with pipes := k.pipes.insert k.fresh {}, fresh := k.fresh + 1 })

/-- Writes the row of a process. -/
def put (pid : Nat) (p : Process) : System :=
  { k with processes := k.processes.insert pid p }

/-- The least number from `least` on that is not among the descriptors. -/
def freeDescriptor (least : Nat) (files : Table Nat Handle) : Nat :=
  ((List.range (files.size + 1)).map (least + ·)).find? (fun fd => !files.contains fd) |>.getD least

/-! ### Files -/

/-- Can one read from a pipe without waiting? -/
def canRead (pipe : Nat) : Bool :=
  ((k.pipes.get? pipe).any fun c => !c.isEmpty) || !k.holds (.writeEnd pipe)

/-- Can one write to a pipe without waiting? -/
def canWrite (pipe : Nat) : Bool :=
  ((k.pipes.get? pipe).any fun c => !c.isFull) || !k.holds (.readEnd pipe)

/-- Reads at most `limit` bytes; `none` if one has to wait for them. -/
def readFrom (h : Handle) (limit : Nat) : Option (Except Fault Bytes × System) :=
  match h with
  | .null => some (.ok [], k)
  | .zero | .full => some (.ok (List.replicate limit (byteOf 0)), k)
  | .directory => some (.error .isDirectory, k)
  | .writeEnd _ => some (.error .badDescriptor, k)
  | .readEnd pipe =>
    if !k.canRead pipe then none
    else
      let (bs, rest) := ((k.pipes.get? pipe).getD {}).draw limit
      some (.ok bs, { k with pipes := k.pipes.insert pipe rest })
  | .file n =>
    match k.opened.get? n with
    | none => some (.ok [], k)
    | some o =>
      let bs := (((k.contents.get? o.number).getD []).drop o.place).take limit
      some (.ok bs, { k with opened := k.opened.insert n { o with place := o.place + bs.length } })

/-- A text with some bytes written over it at a place. -/
def overwrite (old : Bytes) (place : Nat) (bs : Bytes) : Bytes :=
  old.take place ++ List.replicate (place - old.length) (byteOf 0) ++ bs ++ old.drop (place + bs.length)

/-- Writes to an opened file. -/
def writeFile (n : Nat) (bs : Bytes) : System :=
  match k.opened.get? n with
  | none => k
  | some o =>
    let old := (k.contents.get? o.number).getD []
    let place := if o.atEnd then old.length else o.place
    { k with
      contents := k.contents.insert o.number (overwrite old place bs)
      opened := k.opened.insert n { o with place := place + bs.length } }

/-- Writes bytes; gives those for which there is no room yet. -/
def writeTo (h : Handle) (bs : Bytes) : Except Fault Bytes × System :=
  match h with
  | .null | .zero => (.ok [], k)
  | .full => (.error .full, k)
  | .directory | .readEnd _ => (.error .badDescriptor, k)
  | .writeEnd pipe =>
    if !k.holds (.readEnd pipe) then (.error .brokenPipe, k)
    else
      let (c, rest) := ((k.pipes.get? pipe).getD {}).pour bs
      (.ok rest, { k with pipes := k.pipes.insert pipe c })
  | .file n => (.ok [], k.writeFile n bs)

/-- Opens a file that is there. -/
def openNode (p : Process) (access : Access) : Node → Except Fault (Handle × System)
  | .directory | .link _ => if access = .read then .ok (.directory, k) else .error .isDirectory
  | .executable => if access = .read then .ok (.null, k) else .error .denied
  | .null => .ok (.null, k)
  | .zero => .ok (.zero, k)
  | .full => .ok (.full, k)
  | .absent => .error .noDevice
  | .file number =>
    if access = .create then .error .exists
    else .ok (.file k.fresh,
      { k with
        opened := k.opened.insert k.fresh { number, atEnd := access = .append }
        contents := if access = .write then k.contents.insert number [] else k.contents
        fresh := k.fresh + 1 })
  | .descriptor fd =>
    match p.files.get? fd with
    | none => .error .missing
    | some (.readEnd n) | some (.writeEnd n) =>
      .ok (if access = .read then .readEnd n else .writeEnd n, k)
    | some h => .ok (h, k)

/-- Makes a file and opens it. -/
def createFile (path : Path) (access : Access) : Except Fault (Handle × System) :=
  if access = .read then .error .missing
  else
    match k.tree.node? path.dropLast with
    | some .directory =>
      .ok (.file (k.fresh + 1),
        { k with
          tree := k.tree.insert path (.file k.fresh)
          contents := k.contents.insert k.fresh []
          opened := k.opened.insert (k.fresh + 1) { number := k.fresh, atEnd := access = .append }
          fresh := k.fresh + 2 })
    | some _ => .error .notDirectory
    | none => .error .missing

/-- Opens a file. -/
def openAt (p : Process) (path : Bytes) (access : Access) : Except Fault (Handle × System) :=
  match k.tree.locate p.directory path with
  | .error e => .error e
  | .ok path =>
    match k.tree.node? path with
    | some node => k.openNode p access node
    | none => k.createFile path access

/-- What a handle stands for. -/
def kindOf : Handle → Kind
  | .null | .zero | .full => .device
  | .directory => .directory
  | .readEnd _ | .writeEnd _ => .pipe
  | .file n =>
    .file (((k.opened.get? n).bind fun o => k.contents.get? o.number).getD []).length false

/-- What there is at a path. -/
def inspectAt (p : Process) (path : Bytes) : Except Fault Kind :=
  match k.tree.locate p.directory path with
  | .error e => .error e
  | .ok path =>
    match k.tree.node? path with
    | none => .error .missing
    | some (.directory) | some (.link _) => .ok .directory
    | some .executable => .ok (.file 1 true)
    | some (.file n) => .ok (.file ((k.contents.get? n).getD []).length false)
    | some (.descriptor fd) =>
      match p.files.get? fd with
      | some h => .ok (k.kindOf h)
      | none => .error .missing
    | some _ => .ok .device

/-- Removes a file or an empty directory. -/
def removeAt (p : Process) (path : Bytes) (directory : Bool) : Except Fault System :=
  match k.tree.locate p.directory path with
  | .error e => .error e
  | .ok path =>
    match k.tree.node? path with
    | none => .error .missing
    | some .directory =>
      if !directory then .error .isDirectory
      else if (k.tree.names path).isEmpty then .ok { k with tree := k.tree.erase path }
      else .error .notEmpty
    | some _ =>
      if directory then .error .notDirectory else .ok { k with tree := k.tree.erase path }

/-- Makes a directory. -/
def makeDirectoryAt (p : Process) (path : Bytes) : Except Fault System :=
  match k.tree.locate p.directory (path.reverse.dropWhile (· == '/')).reverse with
  | .error e => .error e
  | .ok path =>
    if (k.tree.node? path).isSome then .error .exists
    else
      match k.tree.node? path.dropLast with
      | some .directory => .ok { k with tree := k.tree.insert path .directory }
      | some _ => .error .notDirectory
      | none => .error .missing

/-! ### How processes end -/

/-- Ends a process.  Its children have no parent from then on.  The status is kept for the parent, if
there is one. -/
def terminate (pid status : Nat) : System :=
  let rows := k.processes.rows.filterMap fun (n, p) =>
    if n = pid then
      if k.processes.contains p.parent then
        some (n, { p with program := .exit status, files := {}, status := some status })
      else none
    else if p.parent = pid then
      if p.status.isSome then none else some (n, { p with parent := 0 })
    else some (n, p)
  tidy { k with processes := ⟨rows⟩ }

/-- The signal that no process can react to. -/
def killSignal : Nat := 9

/-- The signal of writing to a pipe that no one reads from. -/
def pipeSignal : Nat := 13

/-- The signals that do nothing if there is no reaction to them: news of a child, of going on, of a
socket, and of a window; and those that would only stop a process. -/
def idleSignals : List Nat := [17, 18, 19, 20, 21, 22, 23, 28]

/-- The status of a process that a signal has ended. -/
def signalStatus (number : Nat) : Nat := 128 + number

/-- Sends a signal to a process. -/
def deliver (pid : Nat) (p : Process) (number : Nat) : System :=
  if number = killSignal then k.terminate pid (signalStatus number)
  else
    match (p.reactions.get? number).getD .default with
    | .ignore => k
    | .note => k.put pid { p with noted := p.noted ++ [number] }
    | .default =>
      if idleSignals.contains number then k else k.terminate pid (signalStatus number)

/-- Sends a signal to all processes of a group. -/
def deliverAll (group number : Nat) : System :=
  (k.processes.rows.filter fun (_, p) => p.group == group && p.status.isNone).foldl
    (fun k (pid, _) =>
      match k.processes.get? pid with
      | some p => k.deliver pid p number
      | none => k)
    k

end System

end SmtCount.Simulation.Kernel
