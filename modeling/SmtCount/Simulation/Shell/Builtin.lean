import SmtCount.Simulation.Shell.Lookup
import SmtCount.Simulation.Shell.Signals
import SmtCount.Simulation.Shell.Variables
import SmtCount.Simulation.Text.Format
import SmtCount.Simulation.Tool.Condition

/-!
# What the shell does itself

The commands that are no programs.

## Main definitions

* `Builtin` — such a command.
* `builtin?` — the command with a name.
-/

namespace SmtCount.Simulation.Shell

open Kernel (Act Fault)
open Simulation.Text (Numeral)

/-- A command that the shell does itself. -/
structure Builtin where
  /-- Does the script end if the command fails?  Assignments before it then stay in force. -/
  special : Bool := false
  /-- Are its operands assignments? -/
  assigns : Bool := false
  run : Interpreter → Mode → List Bytes → Script Outcome

/-- A number that is not negative, as an operand. -/
def operandNumber (operand : Bytes) : Except Bytes Nat :=
  match Numeral.integer? (some 10) operand with
  | some n =>
    if 0 ≤ n ∧ n < 2 ^ 31 then .ok n.toNat else .error ("Illegal number: ".toList ++ operand)
  | none => .error ("Illegal number: ".toList ++ operand)

/-- The number that the first operand is, if there is one. -/
def firstNumber (default : Nat) : List Bytes → Except Bytes Nat
  | [] => .ok default
  | operand :: _ => operandNumber operand

/-- Operands without the mark that no option follows. -/
def dropMark : List Bytes → List Bytes
  | ['-', '-'] :: rest => rest
  | rest => rest

/-! ### Printing -/

/-- What `echo` prints: its operands with spaces between them, and a line end unless the first one
forbids it. -/
def echoBytes (args : List Bytes) : Bytes :=
  let (args, lineEnd) := match args with
    | ['-', 'n'] :: rest => (rest, false)
    | args => (args, true)
  let (bs, ended) := Text.unescape (List.intercalate [' '] args)
  if lineEnd && !ended then bs ++ ['\n'] else bs

/-- Writes what is wrong with the arguments of a format. -/
def complainAll : List Bytes → Script Unit
  | [] => pure ()
  | message :: rest => do
    complain ("printf: ".toList ++ message)
    complainAll rest

/-- Prints as a format says. -/
def printFormat (args : List Bytes) : Script Outcome :=
  match dropMark args with
  | [] => pure (.error "usage: printf format [arg ...]".toList)
  | pattern :: args => do
    let f := Text.format pattern args
    complainAll f.complaints
    match ← say "printf" f.bytes with
    | .error message => pure (.error message)
    | .ok status =>
      match f.broken with
      | some message => pure (.error message)
      | none => pure (.ok (if f.complaints.isEmpty then status else 1))

/-! ### Conditions -/

/-- Checks a condition. -/
def checkCondition (bracket : Bool) (args : List Bytes) : Script Outcome := do
  if bracket && args.getLast? ≠ some [']'] then pure (.error "missing ]".toList)
  else
    match ← Tool.Condition.check (if bracket then args.dropLast else args) with
    | .ok holds => pure (.ok (if holds then 0 else 1))
    | .error message => pure (.error message)

/-! ### Directories -/

/-- Goes to a directory. -/
def changeDirectory (I : Interpreter) (args : List Bytes) : Script Outcome := do
  let s ← Act.get
  let operand := match (dropMark args).filter fun a => a ≠ ['-', 'L'] && a ≠ ['-', 'P'] with
    | [] => (s.stored? "HOME".toList).getD []
    | ['-'] :: _ => (s.stored? "OLDPWD".toList).getD []
    | path :: _ => path
  match ← Act.enter (if operand.isEmpty then ['.'] else operand) with
  | .error _ => pure (.error ("can't cd to ".toList ++ operand))
  | .ok () =>
    let place ← Act.directory
    I.assign "OLDPWD".toList ((s.stored? "PWD".toList).getD [])
    I.assign "PWD".toList place
    if args.head? = some ['-'] then say "cd" (place ++ ['\n']) else pure (.ok 0)

/-! ### Leaving -/

/-- Leaves loops, or goes on with their next turn. -/
def jumpLoops (again : Bool) (args : List Bytes) : Script Outcome := do
  match firstNumber 1 args with
  | .error message => pure (.error message)
  | .ok 0 => pure (.error ("Illegal number: ".toList ++ args.head?.getD []))
  | .ok n =>
    Act.modify fun s =>
      let n := min n s.loops
      if n = 0 then s else { s with jump := some (if again then .nextTurn n else .leaveLoops n) }
    pure (.ok 0)

/-- Leaves a function, or a text that is run on its own. -/
def leaveFunction (args : List Bytes) : Script Outcome := do
  let s ← Act.get
  match firstNumber s.status args with
  | .error message => pure (.error message)
  | .ok status =>
    Act.modify fun s => { s with jump := some .leaveFunction }
    pure (.ok status)

/-- Ends the shell. -/
def exitShell (I : Interpreter) (args : List Bytes) : Script Outcome := do
  let s ← Act.get
  match firstNumber s.status args with
  | .error message => pure (.error message)
  | .ok status => I.leave status

/-! ### Running texts -/

/-- Runs a file. -/
def runFile (I : Interpreter) (mode : Mode) (args : List Bytes) : Script Outcome := do
  match dropMark args with
  | [] => pure (.ok 0)
  | name :: _ =>
    match ← Act.openFile name .read with
    | .error _ => pure (.error ("cannot open ".toList ++ name ++ ": No such file".toList))
    | .ok fd =>
      let fd ← match ← Act.keep fd Kernel.ownDescriptors with
        | .ok own => do
          let _ ← Act.close fd
          pure own
        | .error _ => pure fd
      let text ← readAll fd
      let _ ← Act.close fd
      let status ← I.evaluate { mode with last := false } text
      Act.modify fun s =>
        if s.jump = some .leaveFunction then { s with jump := none } else s
      pure (.ok status)
where
  /-- Reads a file up to its end. -/
  readAll (fd : Nat) : Script Bytes := readPieces fd Act.manyTurns []
  /-- Reads a file up to its end, in at most so many pieces. -/
  readPieces (fd : Nat) : Nat → List Bytes → Script Bytes
    | 0, seen => pure seen.reverse.flatten
    | pieces + 1, seen => do
      match ← Act.read fd 8192 with
      | .ok (c :: cs) => readPieces fd pieces ((c :: cs) :: seen)
      | _ => pure seen.reverse.flatten

/-! ### Names -/

/-- Says what names stand for. -/
def describeAll (status : Nat) : List Bytes → Script Outcome
  | [] => pure (.ok status)
  | name :: rest => do
    match ← describe name with
    | some text =>
      let _ ← say "type" (text ++ ['\n'])
      describeAll status rest
    | none =>
      let _ ← say "type" (name ++ ": not found\n".toList)
      describeAll 127 rest

/-- Says what one would write for a name, or what it stands for. -/
def lookUp (args : List Bytes) : Script Outcome := do
  match args with
  | ['-', 'v'] :: name :: _ =>
    match ← spelling name with
    | some text => say "command" (text ++ ['\n'])
    | none => pure (.ok 127)
  | ['-', 'V'] :: names => describeAll 0 names
  | _ => pure (.ok 0)

/-! ### Signals -/

/-- What a script has asked for about signals, as it would write it. -/
def trapListing (s : Shell) : Bytes :=
  s.traps.rows.flatMap fun (number, action) =>
    "trap -- ".toList ++ singleQuoted action ++ ' ' :: (signalNames[number]?.getD "").toList ++ ['\n']

/-- Sets what to do about signals. -/
def setTraps (action : Option Bytes) : List Bytes → Script Outcome
  | [] => pure (.ok 0)
  | name :: rest => do
    match signalNumber? name with
    | none =>
      complain ("trap: ".toList ++ name ++ ": bad trap".toList)
      pure (.ok 1)
    | some number =>
      setTrap number action
      setTraps action rest

/-- Sets what to do about signals, or says what is. -/
def trapSignals (args : List Bytes) : Script Outcome := do
  match dropMark args with
  | [] => say "trap" (trapListing (← Act.get))
  | [name] => setTraps none [name]
  | action :: names => setTraps (if action = ['-'] then none else some action) names

/-- Sends signals. -/
def killProcesses (args : List Bytes) : Script Outcome := do
  match args with
  | [['-', 'l']] => say "kill" ("0" :: signalNames.drop 1 |>.flatMap fun n => n.toList ++ ['\n'])
  | ['-', 'l'] :: operand :: _ =>
    match operandNumber operand with
    | .error message => pure (.error message)
    | .ok n =>
      match if n % 128 = 0 then none else signalNames[n % 128]? with
      | some name => say "kill" (name.toList ++ ['\n'])
      | none => pure (.error ("invalid signal number or exit status: ".toList ++ operand))
  | args =>
    match signalOf args with
    | .error message => pure (.error message)
    | .ok (number, operands) => sendSignals number operands

/-- Waits for children. -/
def awaitChildren (args : List Bytes) : Script Outcome := do
  let s ← Act.get
  match dropMark args with
  | [] =>
    let status ← awaitJobs 0 s.jobs
    pure (.ok (if (← Act.get).arrived.isEmpty then 0 else status))
  | operands =>
    match operands.mapM (processOf? s) with
    | none => pure (.error ("Illegal number: ".toList ++ operands.head?.getD []))
    | some children => return .ok (← awaitJobs 0 children)

/-! ### The table -/

/-- Gives the arguments but the first ones. -/
def shiftArguments (args : List Bytes) : Script Outcome := do
  match firstNumber 1 args with
  | .error message => pure (.error message)
  | .ok n =>
    let s ← Act.get
    if s.args.length < n then pure (.error "can't shift that many".toList)
    else
      Act.set { s with args := s.args.drop n }
      pure (.ok 0)

/-- Runs operands as a text. -/
def runOperands (I : Interpreter) (mode : Mode) (args : List Bytes) : Script Outcome := do
  return .ok (← I.evaluate { tested := mode.tested } (List.intercalate [' '] (dropMark args)))

/-- Changes variables, or says which ones have been changed. -/
def changeOrList (command : String) (p : Parameter → Bool)
    (change : List Bytes → Script Outcome) (args : List Bytes) : Script Outcome := do
  match dropMark args with
  | [] | ['-', 'p'] :: _ => say command (listing (command ++ " ") p (← Act.get))
  | operands => change operands

/-- Makes variables belong to the current function. -/
def declareLocal (I : Interpreter) (args : List Bytes) : Script Outcome := do
  if (← Act.get).calls = 0 then pure (.error "not in a function".toList)
  else I.makeLocal args

/-- A command that always has the same status. -/
def constantly (status : Nat) : Builtin := { run := fun _ _ _ => pure (.ok status) }

/-- The commands that the shell does itself. -/
def builtins : List (String × Builtin) :=
  [(":", { special := true, run := fun _ _ _ => pure (.ok 0) }),
    (".", { special := true, run := runFile }),
    ("break", { special := true, run := fun _ _ => jumpLoops false }),
    ("continue", { special := true, run := fun _ _ => jumpLoops true }),
    ("eval", { special := true, run := runOperands }),
    ("exec", { special := true, run := fun _ _ _ => pure (.ok 0) }),
    ("exit", { special := true, run := fun I _ => exitShell I }),
    ("export",
      { special := true, assigns := true,
        run := fun I _ => changeOrList "export" Parameter.exported
          (I.exportOrFix fun p => { p with exported := true }) }),
    ("readonly",
      { special := true, assigns := true,
        run := fun I _ => changeOrList "readonly" Parameter.fixed
          (I.exportOrFix fun p => { p with fixed := true }) }),
    ("local", { special := true, assigns := true, run := fun I _ => declareLocal I }),
    ("return", { special := true, run := fun _ _ => leaveFunction }),
    ("set", { special := true, run := fun _ _ => setOptions }),
    ("shift", { special := true, run := fun _ _ => shiftArguments }),
    ("times",
      { special := true,
        run := fun _ _ _ => say "times" "0m0.00s 0m0.00s\n0m0.00s 0m0.00s\n".toList }),
    ("trap", { special := true, run := fun _ _ => trapSignals }),
    ("unset", { special := true, run := fun _ _ => forget false }),
    ("[", { run := fun _ _ => checkCondition true }),
    ("alias", constantly 0),
    ("bg", constantly 0),
    ("cd", { run := fun I _ => changeDirectory I }),
    ("chdir", { run := fun I _ => changeDirectory I }),
    ("command", { run := fun _ _ => lookUp }),
    ("echo", { run := fun _ _ args => say "echo" (echoBytes args) }),
    ("false", constantly 1),
    ("fg", constantly 0),
    ("getopts",
      { run := fun I _ args => do
          match args with
          | letters :: name :: rest =>
            let s ← Act.get
            I.nextOption letters name (if rest.isEmpty then s.args else rest)
          | _ => pure (.error "Usage: getopts optstring var [arg...]".toList) }),
    ("hash", constantly 0),
    ("jobs", constantly 0),
    ("kill", { run := fun _ _ => killProcesses }),
    ("printf", { run := fun _ _ => printFormat }),
    ("pwd", { run := fun _ _ _ => do say "pwd" ((← Act.directory) ++ ['\n']) }),
    ("read", { run := fun I _ => I.readInto false }),
    ("test", { run := fun _ _ => checkCondition false }),
    ("true", constantly 0),
    ("type", { run := fun _ _ => describeAll 0 }),
    ("ulimit", { run := fun _ _ _ => say "ulimit" "unlimited\n".toList }),
    ("umask", { run := fun _ _ args => if args.isEmpty then say "umask" "0022\n".toList else pure (.ok 0) }),
    ("unalias", constantly 0),
    ("wait", { run := fun _ _ => awaitChildren })]

/-- The command with a name. -/
def builtin? (name : Bytes) : Option Builtin :=
  let name := String.ofList name
  (builtins.find? fun b => b.1 == name).map Prod.snd

end SmtCount.Simulation.Shell
