import SmtCount.Simulation.Shell.State

/-!
# Signals

The names of signals, what a script has asked for when one arrives, and the children for which no one
waits.

## Main definitions

* `signalNames` — the names, in the order of their numbers.
* `setTrap`, `runTraps` — what to do about a signal, and doing it.
* `sendSignal`, `awaitJobs` — sending a signal, and waiting for children.
-/

namespace SmtCount.Simulation.Shell

open Kernel (Act Reaction)

/-- The names of the signals, in the order of their numbers; the first is the end of the script. -/
def signalNames : List String :=
  ["EXIT", "HUP", "INT", "QUIT", "ILL", "TRAP", "ABRT", "BUS", "FPE", "KILL", "USR1", "SEGV", "USR2",
    "PIPE", "ALRM", "TERM", "STKFLT", "CHLD", "CONT", "STOP", "TSTP", "TTIN", "TTOU", "URG", "XCPU",
    "XFSZ", "VTALRM", "PROF", "WINCH", "IO", "PWR", "SYS"]

/-- The number of a signal that is given by number or by name. -/
def signalNumber? (name : Bytes) : Option Nat :=
  if !name.isEmpty && name.all Char.isDigit then
    let n := Nat.ofDigitChars 10 name 0
    if n < 65 then some n else none
  else
    let upper := name.map Char.toUpper
    let n := signalNames.findIdx fun s => s.toList = upper
    if n < signalNames.length then some n else none

/-- Sets what to do about a signal. -/
def setTrap (number : Nat) (action : Option Bytes) : Script Unit := do
  Act.modify fun s =>
    { s with
      traps := match action with
        | some text => s.traps.insert number text
        | none => s.traps.erase number }
  if number ≠ 0 then
    let reaction : Reaction := match action with
      | none => .default
      | some [] => .ignore
      | some _ => .note
    let _ ← Act.react number reaction

/-- Does what the script has asked for about the signals that have arrived. -/
def runArrived (evaluate : Bytes → Script Nat) : Nat → Script Unit
  | 0 => pure ()
  | turns + 1 => do
    let s ← Act.get
    match s.arrived with
    | [] => pure ()
    | number :: rest =>
      Act.set { s with arrived := rest }
      match s.traps.get? number with
      | some (c :: cs) =>
        let _ ← evaluate (c :: cs)
        Act.modify fun t => { t with status := s.status }
      | _ => pure ()
      runArrived evaluate turns

/-- Does what the script has asked for about signals, if some have arrived. -/
def runTraps (evaluate : Bytes → Script Nat) : Script Unit := do
  if (← Act.get).traps.rows.any fun r => r.1 ≠ 0 && !r.2.isEmpty then
    collect
    runArrived evaluate 1000

/-- The process that an operand names: a number, or a child by its place among those for which no one
waits. -/
def processOf? (s : Shell) (operand : Bytes) : Option Nat :=
  match operand with
  | '%' :: rest =>
    if rest.isEmpty || rest = ['%'] || rest = ['+'] then s.jobs.getLast?
    else if rest.all Char.isDigit then s.jobs[Nat.ofDigitChars 10 rest 0 - 1]? else none
  | digits =>
    if !digits.isEmpty && digits.all Char.isDigit then some (Nat.ofDigitChars 10 digits 0) else none

/-- Sends a signal to the processes that operands name; gives what is wrong with them. -/
def sendSignals (number : Nat) : List Bytes → Script (Except Bytes Nat)
  | [] => pure (.ok 0)
  | operand :: rest => do
    match processOf? (← Act.get) operand with
    | none => pure (.error ("Illegal number: ".toList ++ operand))
    | some process =>
      match ← Act.signal process number with
      | .ok () => sendSignals number rest
      | .error e =>
        complain ("kill: ".toList ++ e.message.toList)
        match ← sendSignals number rest with
        | .ok _ => pure (.ok 1)
        | .error message => pure (.error message)

/-- The signal and the operands that the arguments of `kill` ask for. -/
def signalOf (args : List Bytes) : Except Bytes (Nat × List Bytes) :=
  match args with
  | ['-', 's'] :: name :: rest =>
    match signalNumber? name with
    | some n => .ok (n, rest)
    | none => .error ("invalid signal number or name: ".toList ++ name)
  | ['-', '-'] :: rest => .ok (15, rest)
  | ('-' :: name) :: rest =>
    match signalNumber? name with
    | some n => .ok (n, rest)
    | none => .error ("invalid signal number or name: ".toList ++ name)
  | rest => .ok (15, rest)

/-- Waits for a child, unless a signal arrives first; gives the status of the one or the other. -/
def awaitJob (child : Nat) : Script (Nat × Bool) := do
  match ← Act.await (some child) with
  | .ended _ status =>
    Act.modify fun s => { s with jobs := s.jobs.erase child }
    pure (status, false)
  | .none => pure (127, false)
  | .interrupted =>
    collect
    let s ← Act.get
    pure (128 + s.arrived.head?.getD 0, true)

/-- Waits for children one after another; gives the status of the last one. -/
def awaitJobs : Nat → List Nat → Script Nat
  | status, [] => pure status
  | _, child :: rest => do
    let (status, interrupted) ← awaitJob child
    if interrupted then pure status else awaitJobs status rest

end SmtCount.Simulation.Shell
