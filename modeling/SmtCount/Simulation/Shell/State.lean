import SmtCount.Simulation.Shell.Parser
import SmtCount.Simulation.Tool.Basic

/-!
# The state of a shell

What a shell knows while it runs a script, and how it changes that.

## Main definitions

* `Shell` — the state.
* `Script α` — a part of running a script.
* `Interpreter` — how commands are run, and which programs there are.
* `Interpreter.evaluate` — runs the lines of a text.
* `Interpreter.leave` — ends the shell.
-/

namespace SmtCount.Simulation.Shell

open Kernel (Act Program Fault)
open Tool (Image)

/-- What is known of a variable. -/
structure Parameter where
  value : Option Bytes := none
  exported : Bool := false
  /-- Does the value stay as it is? -/
  fixed : Bool := false

/-- Why the commands that follow are not run. -/
inductive Jump
  /-- So many loops are left. -/
  | leaveLoops (count : Nat)
  /-- All but one of so many loops are left, and the last one goes on with its next turn. -/
  | nextTurn (count : Nat)
  /-- A function, or a text that is run on its own, is left. -/
  | leaveFunction
  deriving DecidableEq

/-- How a command is run. -/
structure Mode where
  /-- Does the script ask whether the command succeeds? -/
  tested : Bool := false
  /-- Does the shell end after the command? -/
  last : Bool := false

end SmtCount.Simulation.Shell

namespace SmtCount.Simulation

open Shell (Parameter Jump Command Word)

/-- The state of a shell. -/
structure Shell where
  name : Bytes
  args : List Bytes := []
  parameters : Table Bytes Parameter := {}
  functions : Table Bytes Command := {}
  /-- The letters of the options that are set. -/
  options : List Char := []
  /-- The status of the last command. -/
  status : Nat := 0
  /-- The status of the last command whose output has become a part of a word. -/
  substituted : Nat := 0
  jump : Option Jump := none
  /-- How many loops are being run. -/
  loops : Nat := 0
  /-- What variables were before a function, or a program, made them its own. -/
  outer : List (List (Bytes × Option Parameter)) := []
  /-- How many functions are being run. -/
  calls : Nat := 0
  /-- What to do about signals; nothing to be done about 0 at the end. -/
  traps : Table Nat Bytes := {}
  /-- The signals that have arrived. -/
  arrived : List Nat := []
  /-- The descriptors that redirections have changed, with where the old ones are kept. -/
  kept : List (List (Nat × Option Nat)) := []
  /-- The children for which no one waits. -/
  jobs : List Nat := []
  lastJob : Option Nat := none
  line : Nat := 1
  documents : Table Nat Word := {}
  nextDocument : Nat := 0
  /-- The number of the process that the script began in. -/
  process : Nat := 0
  /-- How many letters of the current argument have been read as options. -/
  scanned : Nat := 0

end SmtCount.Simulation

namespace SmtCount.Simulation.Shell

open Kernel (Act Program Fault)
open Tool (Image)

/-- A part of running a script. -/
abbrev Script := Act Shell

/-- How commands are run, and which programs there are. -/
structure Interpreter where
  run : Mode → Command → Script Unit
  image : Bytes → Option Image

section State

variable (s : Shell)

def isSet (option : Char) : Bool := s.options.contains option

/-- The value of a variable. -/
def stored? (name : Bytes) : Option Bytes :=
  if name = "LINENO".toList then some (decimal s.line)
  else (s.parameters.get? name).bind Parameter.value

/-- The bytes that separate fields. -/
def separators : Bytes := (s.stored? "IFS".toList).getD [' ', '\t', '\n']

/-- What lies between arguments in a single text. -/
def joint : Bytes :=
  match s.stored? "IFS".toList with
  | some ifs => ifs.take 1
  | none => [' ']

/-- The value of a parameter that is one text. -/
def value? (name : Bytes) : Option Bytes :=
  match name with
  | ['#'] => some (decimal s.args.length)
  | ['?'] => some (decimal s.status)
  | ['$'] => some (decimal s.process)
  | ['!'] => s.lastJob.map decimal
  | ['-'] => some s.options
  | ['0'] => some s.name
  | c :: _ =>
    if c.isDigit then s.args[Nat.ofDigitChars 10 name 0 - 1]? else s.stored? name
  | [] => none

/-- The variables that programs are given. -/
def exports : Table Bytes Bytes :=
  ⟨s.parameters.rows.filterMap fun (name, p) =>
    if p.exported then p.value.map (name, ·) else none⟩

/-- The state with a new value of a variable. -/
def assigned (name value : Bytes) : Shell :=
  let p := (s.parameters.get? name).getD {}
  { s with
    parameters := s.parameters.insert name
      { p with value := some value, exported := p.exported || s.isSet 'a' }
    scanned := if name = "OPTIND".toList then 0 else s.scanned }

/-- Notes what a variable is, so that it becomes that again at the end of the current call. -/
def shadowed (name : Bytes) : Shell :=
  match s.outer with
  | frame :: frames =>
    if frame.any (·.1 == name) then s
    else { s with outer := ((name, s.parameters.get? name) :: frame) :: frames }
  | [] => s

/-- Ends the current call: its variables become what they were. -/
def unshadowed : Shell :=
  match s.outer with
  | frame :: frames =>
    let parameters := frame.foldl
      (fun (t : Table Bytes Parameter) (name, p) =>
        match p with
        | some p => t.insert name p
        | none => t.erase name)
      s.parameters
    { s with outer := frames, parameters }
  | [] => s

end State

/-! ### Messages -/

/-- Writes a message to the descriptor for messages. -/
def complain (message : Bytes) : Script Unit := do
  let s ← Act.get
  let _ ← Act.write 2 (s.name ++ ": ".toList ++ decimal s.line ++ ": ".toList ++ message ++ ['\n'])

def setStatus (status : Nat) : Script Unit :=
  Act.modify fun s => { s with status }

/-! ### Descriptors -/

/-- Makes descriptors what they were before a redirection.  If `keep`, they stay as they are, and only
what was kept of the old ones is forgotten. -/
def restoreFrame (keep : Bool) : List (Nat × Option Nat) → Script Unit
  | [] => pure ()
  | (fd, old) :: rest => do
    match old with
    | some old =>
      if !keep then
        let _ ← Act.copy old fd
      let _ ← Act.close old
    | none =>
      if !keep then
        let _ ← Act.close fd
    restoreFrame keep rest

/-- Makes descriptors what they were before the last redirections. -/
def restore (keep : Bool) : Script Unit := do
  match (← Act.get).kept with
  | [] => pure ()
  | frame :: frames =>
    Act.modify fun s => { s with kept := frames }
    restoreFrame keep frame

/-- Makes descriptors what they were before all redirections. -/
def restoreAll : Nat → Script Unit
  | 0 => pure ()
  | frames + 1 => do
    restore false
    restoreAll frames

/-! ### Running texts -/

namespace Interpreter

variable (I : Interpreter)

/-- Ends the shell, after what the script has asked for at its end.  The lines to be run then are
`atEnd`. -/
def leaveWith {α : Type} (evaluate : Bytes → Script Unit) (status : Nat) : Script α := do
  restoreAll (← Act.get).kept.length
  match (← Act.get).traps.get? 0 with
  | none => Act.exit status
  | some action =>
    Act.modify fun s => { s with traps := s.traps.erase 0, jump := none, status, loops := 0 }
    evaluate action
    Act.exit status

/-- Runs the lines of a text one after another.  Gives the status of the last one. -/
def evaluateLines (fail : Bytes → Script Nat) (mode : Mode) : Nat → Nat → Source → Script Nat
  | 0, status, _ => pure status
  | lines + 1, status, source => do
    match Reader.nextLine.run source with
    | .error (.wrong line message) =>
      Act.modify fun s => { s with line }
      fail message.toList
    | .error .unfinished => pure status
    | .ok (.none, _) => pure status
    | .ok (.commands c last, source) =>
      Act.modify fun s =>
        { s with
          documents := source.documents.rows.foldl (fun t r => t.insert r.1 r.2) s.documents
          nextDocument := source.nextDocument }
      I.run { mode with last := mode.last && last } c
      let s ← Act.get
      let status := match c with
        | .skip => status
        | _ => s.status
      if s.jump.isSome then pure status
      else evaluateLines fail mode lines status { source with documents := {} }

/-- Runs a text, once something is known to do about lines that cannot be read. -/
def evaluateWith (fail : Bytes → Script Nat) (mode : Mode) (text : Bytes) : Script Nat := do
  let s ← Act.get
  I.evaluateLines fail mode (text.length + 1) 0 { rest := text, nextDocument := s.nextDocument }

/-- Runs the lines for the end of the script; if they cannot be read, the shell ends. -/
def evaluateLast (text : Bytes) : Script Unit := do
  let _ ← I.evaluateWith (fun message => do
    complain message
    Act.exit 2) {} text

/-- Ends the shell. -/
def leave {α : Type} (status : Nat) : Script α :=
  leaveWith I.evaluateLast status

/-- Ends the shell because something is wrong. -/
def fail {α : Type} (message : Bytes) : Script α := do
  complain message
  I.leave 2

/-- Runs the lines of a text.  Gives the status of the last one. -/
def evaluate (mode : Mode) (text : Bytes) : Script Nat :=
  I.evaluateWith I.fail mode text

/-- Gives a variable a value. -/
def assign (name value : Bytes) : Script Unit := do
  let s ← Act.get
  if (s.parameters.get? name).any Parameter.fixed then I.fail (name ++ ": is read only".toList)
  else Act.set (s.assigned name value)

end Interpreter

/-! ### Children -/

/-- Notes the signals that have arrived. -/
def collect : Script Unit := do
  let signals ← Act.arrived
  Act.modify fun s => { s with arrived := s.arrived ++ signals }

/-- Waits for a child, in at most so many turns; gives its status. -/
def awaitChild (child : Nat) : Nat → Script Nat
  | 0 => pure 127
  | turns + 1 => do
    match ← Act.await (some child) with
    | .ended _ status => pure status
    | .none => pure 127
    | .interrupted =>
      collect
      awaitChild child turns

/-- Waits for a child; gives its status. -/
def waitFor (child : Nat) : Script Nat := awaitChild child 1000000

/-- Makes a copy of the shell one that has no children and does nothing about signals but ignore
them. -/
def startChild : Script Unit := do
  let s ← Act.get
  Act.set { s with
    traps := ⟨s.traps.rows.filter fun r => r.2.isEmpty⟩
    arrived := []
    jobs := [] }
  (s.traps.rows.filter fun r => r.1 ≠ 0 && !r.2.isEmpty).forM fun r => do
    let _ ← Act.react r.1 .default

/-- Starts a copy of the shell that does something and ends. -/
def Interpreter.fork (I : Interpreter) (child : Script Unit) : Script Nat :=
  Act.fork do
    startChild
    child
    I.leave (← Act.get).status

end SmtCount.Simulation.Shell
