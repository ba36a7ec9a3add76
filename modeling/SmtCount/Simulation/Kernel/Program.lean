import SmtCount.Power
import SmtCount.Simulation.Text.Bytes

/-!
# Programs

A program is what a process does from now on: one call on the system, and for each answer what comes
then.  The tree of all that it may do is unfolded only as far as the answers go.

Most programs are written as parts that hand on a state.  A part says what to do for whatever comes
after it, so that a part may as well end the process and forget what comes after.

## Main definitions

* `Fault` — why a call fails.
* `Program` — the calls and what follows them.
* `Act σ α` — a part of a program with a state of `σ`, which gives an `α`.
-/

namespace SmtCount.Simulation.Kernel

/-- Why a call fails. -/
inductive Fault
  | badDescriptor
  | missing
  | notDirectory
  | isDirectory
  | denied
  | brokenPipe
  | full
  | exists
  | noProcess
  | noDevice
  | notEmpty
  | invalid
  deriving DecidableEq, Repr

/-- The wording of a `Fault`. -/
def Fault.message : Fault → String
  | .badDescriptor => "Bad file descriptor"
  | .missing => "No such file or directory"
  | .notDirectory => "Not a directory"
  | .isDirectory => "Is a directory"
  | .denied => "Permission denied"
  | .brokenPipe => "Broken pipe"
  | .full => "No space left on device"
  | .exists => "File exists"
  | .noProcess => "No such process"
  | .noDevice => "No such device or address"
  | .notEmpty => "Directory not empty"
  | .invalid => "Invalid argument"

/-- What a file is opened for. -/
inductive Access
  | read
  /-- For writing; what was in the file is dropped. -/
  | write
  /-- For writing at the end. -/
  | append
  /-- For reading and writing; what is in the file stays. -/
  | update
  /-- For writing, if there was no such file. -/
  | create
  deriving DecidableEq, Repr

/-- What there is at a path. -/
inductive Kind
  | file (size : Nat) (executable : Bool)
  | directory
  | device
  | pipe
  deriving DecidableEq, Repr

/-- What a process does about a signal. -/
inductive Reaction
  /-- Most signals end the process. -/
  | default
  | ignore
  /-- The process asks now and then which signals have arrived. -/
  | note
  deriving DecidableEq, Repr

/-- The answer of waiting for a child. -/
inductive Awaited
  /-- There is no such child. -/
  | none
  /-- A signal has arrived. -/
  | interrupted
  | ended (process status : Nat)
  deriving DecidableEq, Repr

/-- What a process does from now on.  Descriptors and processes are numbers, and so are signals. -/
inductive Program
  | exit (status : Nat)
  /-- Lets time pass. -/
  | pause (nanos : Nat) (next : Unit → Program)
  /-- Reads at most `limit` bytes, and waits for the first; no bytes at the end. -/
  | read (fd limit : Nat) (next : Except Fault Bytes → Program)
  /-- Writes all bytes, and waits until there is room for them. -/
  | write (fd : Nat) (bytes : Bytes) (next : Except Fault Unit → Program)
  /-- Opens a file under the least free descriptor. -/
  | openFile (path : Bytes) (access : Access) (next : Except Fault Nat → Program)
  | close (fd : Nat) (next : Except Fault Unit → Program)
  /-- Makes `target` stand for what `source` stands for. -/
  | copy (source target : Nat) (next : Except Fault Unit → Program)
  /-- Makes the least free descriptor not below `least` stand for what `source` stands for. -/
  | keep (source least : Nat) (next : Except Fault Nat → Program)
  /-- Makes a pipe; gives the descriptors to read from it and to write to it. -/
  | newPipe (next : Nat × Nat → Program)
  /-- Starts a process that does `child`. -/
  | fork (child : Unit → Program) (next : Nat → Program)
  /-- Does `image` instead, as a program of its own: descriptors from `ownDescriptors` on are closed,
  and signals are no longer noted. -/
  | replace (image : Unit → Program)
  /-- Waits until a child ends. -/
  | await (child : Option Nat) (next : Awaited → Program)
  | signal (process number : Nat) (next : Except Fault Unit → Program)
  /-- Begins a group of processes: itself, and those that it and they start from then on. -/
  | lead (next : Unit → Program)
  /-- Sends a signal to all processes of its group. -/
  | signalGroup (number : Nat) (next : Unit → Program)
  /-- Sets the reaction to a signal; gives the old one. -/
  | react (number : Nat) (reaction : Reaction) (next : Reaction → Program)
  /-- Asks which signals have arrived. -/
  | arrived (next : List Nat → Program)
  | identity (next : Nat → Program)
  /-- Asks which process started it. -/
  | parent (next : Nat → Program)
  | inspect (path : Bytes) (next : Except Fault Kind → Program)
  /-- Asks what a descriptor stands for. -/
  | inspectOpen (fd : Nat) (next : Except Fault Kind → Program)
  | remove (path : Bytes) (directory : Bool) (next : Except Fault Unit → Program)
  | makeDirectory (path : Bytes) (next : Except Fault Unit → Program)
  | enter (path : Bytes) (next : Except Fault Unit → Program)
  | directory (next : Bytes → Program)

/-- The descriptors from here on belong to one program and are not handed to another. -/
def ownDescriptors : Nat := 10

/-- A part of a program with a state of `σ`, which gives an `α`. -/
def Act (σ α : Type) : Type := σ → (α → σ → Program) → Program

namespace Act

variable {σ α β : Type}

instance : Monad (Act σ) where
  pure a := fun s next => next a s
  bind m f := fun s next => m s fun a s => f a s next

/-- The state. -/
def get : Act σ σ := fun s next => next s s

def set (s : σ) : Act σ Unit := fun _ next => next () s

def modify (f : σ → σ) : Act σ Unit := fun s next => next () (f s)

/-- Ends the process. -/
def exit (status : Nat) : Act σ α := fun _ _ => .exit status

/-- What a part does as a whole program, which ends with the status that the part gives. -/
def toProgram (m : Act σ Nat) (s : σ) : Program :=
  m s fun status _ => .exit status

/-- More turns than anything takes. -/
def manyTurns : Nat := 2 ^ 62

/-- Goes on with a part as long as it gives `true`, for at most so many turns. -/
def repeatWhile (m : Act σ Bool) : Nat → Act σ Unit
  | 0 => pure ()
  | turns + 1 => do
    if ← m then repeatWhile m turns

/-- Goes on with a part until it gives `false`. -/
def forever (m : Act σ Bool) : Act σ Unit := repeatWhile m manyTurns

/-! ### Calls -/

def pause (nanos : Nat) : Act σ Unit := fun s next => .pause nanos fun a => next a s

def read (fd limit : Nat) : Act σ (Except Fault Bytes) :=
  fun s next => .read fd limit fun a => next a s

def write (fd : Nat) (bytes : Bytes) : Act σ (Except Fault Unit) :=
  fun s next => if bytes.isEmpty then next (.ok ()) s else .write fd bytes fun a => next a s

def openFile (path : Bytes) (access : Access) : Act σ (Except Fault Nat) :=
  fun s next => .openFile path access fun a => next a s

def close (fd : Nat) : Act σ (Except Fault Unit) := fun s next => .close fd fun a => next a s

def copy (source target : Nat) : Act σ (Except Fault Unit) :=
  fun s next => .copy source target fun a => next a s

def keep (source least : Nat) : Act σ (Except Fault Nat) :=
  fun s next => .keep source least fun a => next a s

def newPipe : Act σ (Nat × Nat) := fun s next => .newPipe fun a => next a s

/-- Starts a process that does a part and ends. -/
def fork (child : Act σ Nat) : Act σ Nat :=
  fun s next => .fork (fun _ => child.toProgram s) fun a => next a s

def replace (image : Unit → Program) : Act σ α := fun _ _ => .replace image

def await (child : Option Nat) : Act σ Awaited := fun s next => .await child fun a => next a s

def signal (process number : Nat) : Act σ (Except Fault Unit) :=
  fun s next => .signal process number fun a => next a s

def lead : Act σ Unit := fun s next => .lead fun a => next a s

def signalGroup (number : Nat) : Act σ Unit := fun s next => .signalGroup number fun a => next a s

def react (number : Nat) (reaction : Reaction) : Act σ Reaction :=
  fun s next => .react number reaction fun a => next a s

def arrived : Act σ (List Nat) := fun s next => .arrived fun a => next a s

def identity : Act σ Nat := fun s next => .identity fun a => next a s

def parent : Act σ Nat := fun s next => .parent fun a => next a s

def inspect (path : Bytes) : Act σ (Except Fault Kind) :=
  fun s next => .inspect path fun a => next a s

def inspectOpen (fd : Nat) : Act σ (Except Fault Kind) :=
  fun s next => .inspectOpen fd fun a => next a s

def remove (path : Bytes) (directory : Bool) : Act σ (Except Fault Unit) :=
  fun s next => .remove path directory fun a => next a s

def makeDirectory (path : Bytes) : Act σ (Except Fault Unit) :=
  fun s next => .makeDirectory path fun a => next a s

def enter (path : Bytes) : Act σ (Except Fault Unit) := fun s next => .enter path fun a => next a s

def directory : Act σ Bytes := fun s next => .directory fun a => next a s

end Act

end SmtCount.Simulation.Kernel
