import SmtCount.Simulation.Kernel.Program
import SmtCount.Table

/-!
# Tools

The programs that scripts run, but for the shell: small programs that read their input, or the files
that they are given, and print something.  A tool does not print at once.  It gathers what it prints
until there is a block of it, or until it ends.

## Main definitions

* `Image` — a program for its arguments and variables.
* `Stream` — the state of a tool.
* `Tool` — a part of a tool.
* `emit`, `flush` — prints something, and makes sure that it is printed.
* `nextLine`, `readAll` — reads the next line of the input, and all of it.
* `forFiles` — goes through the files that a tool is given.
-/

namespace SmtCount.Simulation.Tool

open Kernel (Act Program Fault)

/-- A program for its arguments, the first of which is its name, and for the variables it is given. -/
abbrev Image := List Bytes → Table Bytes Bytes → Program

/-- The state of a tool. -/
structure Stream where
  name : Bytes
  /-- From where the tool reads. -/
  input : Nat := 0
  /-- How many bytes it reads at once. -/
  chunk : Nat := 4096
  /-- What has been read and not been used. -/
  buffer : Bytes := []
  /-- The byte at the end of a line. -/
  ending : Char := '\n'
  /-- What has been printed and not been written, last part first. -/
  printed : List Bytes := []
  /-- How many bytes that is. -/
  pending : Nat := 0
  /-- Is everything written as soon as it is printed? -/
  eager : Bool := false
  /-- The status with which the tool ends. -/
  status : Nat := 0

end SmtCount.Simulation.Tool

namespace SmtCount.Simulation

/-- A part of a tool. -/
abbrev Tool := Kernel.Act Tool.Stream

end SmtCount.Simulation

namespace SmtCount.Simulation.Tool

open Kernel (Act Program Fault)

/-- How many bytes are written at once. -/
def blockSize : Nat := 4096

/-- Writes a message, with the name of the tool before it. -/
def complain (message : Bytes) : Tool Unit := do
  let s ← Act.get
  let _ ← Act.write 2 (s.name ++ ": ".toList ++ message ++ ['\n'])

/-- Writes something; if that is not possible, the tool ends. -/
def put (bs : Bytes) : Tool Unit := do
  match ← Act.write 1 bs with
  | .ok () => pure ()
  | .error e =>
    complain ("write error: ".toList ++ e.message.toList)
    Act.exit 1

/-- Writes what has been printed. -/
def flush : Tool Unit := do
  let s ← Act.get
  Act.set { s with printed := [], pending := 0 }
  put s.printed.reverse.flatten

/-- Prints something. -/
def emit (bs : Bytes) : Tool Unit := do
  let s ← Act.get
  let pending := s.pending + bs.length
  if s.eager then put bs
  else if pending < blockSize then Act.set { s with printed := bs :: s.printed, pending }
  else
    let all := (bs :: s.printed).reverse.flatten
    let whole := pending - pending % blockSize
    Act.set { s with printed := [all.drop whole], pending := pending % blockSize }
    put (all.take whole)

/-- Prints a line. -/
def emitLine (bs : Bytes) : Tool Unit := do
  let s ← Act.get
  emit (bs ++ [s.ending])

/-- Sets the status with which the tool ends. -/
def setStatus (status : Nat) : Tool Unit := Act.modify fun s => { s with status }

/-- Ends the tool. -/
def finish {α : Type} : Tool α := do
  flush
  Act.exit (← Act.get).status

/-- Ends the tool because something is wrong. -/
def die {α : Type} (status : Nat) (message : Bytes) : Tool α := do
  flush
  complain message
  Act.exit status

/-- The variable that asks a tool to write everything as soon as it is printed. -/
def eagerVariable : Bytes := "_STDBUF_O".toList

/-- A tool as a program; `run` gets the arguments after the name. -/
def program (chunk : Nat) (run : List Bytes → Tool Unit) : Image := fun args environment =>
  Act.toProgram
    (do
      run args.tail
      finish)
    { name := args.head?.getD [], chunk, eager := environment.contains eagerVariable }

/-! ### Input -/

/-- Reads some bytes of the input; none at its end. -/
def readChunk : Tool Bytes := do
  let s ← Act.get
  match ← Act.read s.input s.chunk with
  | .ok bs => pure bs
  | .error e =>
    complain ("read error: ".toList ++ e.message.toList)
    setStatus 1
    pure []

/-- Puts something in front of what has been read and not been used. -/
def unread (bs : Bytes) : Tool Unit := Act.modify fun s => { s with buffer := bs ++ s.buffer }

/-- The next line of the input, and whether it has an end, in at most so many chunks; `none` at the end
of the input.  What is known of the line already is `seen`, last part first. -/
def nextLineFrom : Nat → List Bytes → Tool (Option (Bytes × Bool))
  | 0, _ => pure none
  | chunks + 1, seen => do
    let s ← Act.get
    let part := s.buffer.takeWhile (· ≠ s.ending)
    match s.buffer.drop part.length with
    | _ :: rest =>
      Act.set { s with buffer := rest }
      pure (some ((part :: seen).reverse.flatten, true))
    | [] =>
      let known := if part.isEmpty then seen else part :: seen
      let more ← readChunk
      Act.modify fun s => { s with buffer := more }
      if more.isEmpty then
        pure (if known.isEmpty then none else some (known.reverse.flatten, false))
      else nextLineFrom chunks known

/-- The next line of the input, and whether it has an end; `none` at the end of the input. -/
def nextLine : Tool (Option (Bytes × Bool)) := nextLineFrom Act.manyTurns []

/-- Reads the rest of the input, in at most so many chunks. -/
def readFrom : Nat → List Bytes → Tool Bytes
  | 0, seen => pure seen.reverse.flatten
  | chunks + 1, seen => do
    match ← readChunk with
    | [] => pure seen.reverse.flatten
    | more => readFrom chunks (more :: seen)

/-- Reads the rest of the input. -/
def readAll : Tool Bytes := do
  let s ← Act.get
  Act.set { s with buffer := [] }
  readFrom Act.manyTurns [s.buffer]

/-- Does something with every line of the input, as long as that gives `true`. -/
def forLines (act : Bytes → Bool → Tool Bool) : Tool Unit :=
  Act.forever do
    match ← nextLine with
    | none => pure false
    | some (line, hasEnd) => act line hasEnd

/-- Does something with every line of the input. -/
def forEachLine (act : Bytes → Tool Unit) : Tool Unit :=
  forLines fun line _ => do
    act line
    pure true

/-- Opens a file as the input; a minus sign stands for the input that the tool was started with.  Says
whether that was possible. -/
def openInput (file : Bytes) : Tool Bool := do
  if file = ['-'] then
    Act.modify fun s => { s with input := 0, buffer := [] }
    pure true
  else
    match ← Act.openFile file .read with
    | .ok fd =>
      Act.modify fun s => { s with input := fd, buffer := [] }
      pure true
    | .error e =>
      complain (file ++ ": ".toList ++ e.message.toList)
      setStatus 1
      pure false

/-- Closes the input. -/
def closeInput : Tool Unit := do
  let s ← Act.get
  if s.input ≠ 0 then
    let _ ← Act.close s.input

/-- Does something with every file that can be opened. -/
def forEach (act : Bytes → Tool Unit) : List Bytes → Tool Unit
  | [] => pure ()
  | file :: files => do
    if ← openInput file then
      act file
      closeInput
    forEach act files

/-- Does something with every file that can be opened, or with the input if there are no files. -/
def forFiles (files : List Bytes) (act : Bytes → Tool Unit) : Tool Unit :=
  forEach act (if files.isEmpty then [['-']] else files)

/-- The content of all files, one after another. -/
def contentOf (files : List Bytes) : Tool (List Bytes) :=
  go [] (if files.isEmpty then [['-']] else files)
where
  go (seen : List Bytes) : List Bytes → Tool (List Bytes)
    | [] => pure seen.reverse
    | file :: files => do
      if ← openInput file then
        let content ← readAll
        closeInput
        go (content :: seen) files
      else go seen files

/-- The lines of a text; one that has no end counts as well. -/
def linesOf (bs : Bytes) (ending : Char := '\n') : List Bytes :=
  match bs.splitOn ending with
  | [] => []
  | parts => if parts.getLast? = some [] then parts.dropLast else parts

end SmtCount.Simulation.Tool
