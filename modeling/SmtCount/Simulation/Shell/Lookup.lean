import SmtCount.Simulation.Shell.State

/-!
# What a name stands for

A name at the start of a command stands for something that the shell does itself, for a function of
the script, or for a program.

## Main definitions

* `specialNames`, `regularNames` — what the shell does itself.
* `findProgram` — where a program is.
* `Interpreter.execute` — does a program instead of the shell.
-/

namespace SmtCount.Simulation.Shell

open Kernel (Act Fault)

/-- The commands that functions cannot hide, and whose failure ends a script. -/
def specialNames : List String :=
  [".", ":", "break", "continue", "eval", "exec", "exit", "export", "local", "readonly", "return",
    "set", "shift", "times", "trap", "unset"]

/-- The other commands that the shell does itself. -/
def regularNames : List String :=
  ["alias", "bg", "cd", "chdir", "command", "echo", "false", "fg", "getopts", "hash", "jobs", "kill",
    "printf", "pwd", "read", "test", "[", "true", "type", "ulimit", "umask", "unalias", "wait"]

def isSpecial (name : Bytes) : Bool := specialNames.contains (String.ofList name)

def isRegular (name : Bytes) : Bool := regularNames.contains (String.ofList name)

/-- Where programs are looked for. -/
def searchPath (s : Shell) : List Bytes :=
  (((s.stored? "PATH".toList).getD []).splitOn ':').map fun d => if d.isEmpty then ['.'] else d

/-- The first of some paths at which there is an executable. -/
def firstExecutable : List Bytes → Script (Option Bytes)
  | [] => pure none
  | path :: rest => do
    match ← Act.inspect path with
    | .ok (.file _ true) => pure (some path)
    | _ => firstExecutable rest

/-- Where a program is; a name with a slash is a path already. -/
def findProgram (name : Bytes) : Script (Option Bytes) := do
  if name.contains '/' then pure (some name)
  else if name.isEmpty then pure none
  else firstExecutable ((searchPath (← Act.get)).map fun d => d ++ '/' :: name)

/-- The name at the end of a path. -/
def baseName (path : Bytes) : Bytes := (path.splitOn '/').getLast?.getD []

/-- What a name stands for, in words. -/
def describe (name : Bytes) : Script (Option Bytes) := do
  let s ← Act.get
  if keywords.contains (String.ofList name) then
    pure (some (name ++ " is a shell keyword".toList))
  else if isSpecial name then pure (some (name ++ " is a special shell builtin".toList))
  else if s.functions.contains name then pure (some (name ++ " is a shell function".toList))
  else if isRegular name then pure (some (name ++ " is a shell builtin".toList))
  else
    match ← findProgram name with
    | none => pure none
    | some path =>
      match ← Act.inspect path with
      | .ok (.file _ true) => pure (some (name ++ " is ".toList ++ path))
      | _ => pure none

/-- What one would write for a name. -/
def spelling (name : Bytes) : Script (Option Bytes) := do
  let s ← Act.get
  if keywords.contains (String.ofList name) || isSpecial name || isRegular name ||
      s.functions.contains name then pure (some name)
  else
    match ← findProgram name with
    | none => pure none
    | some path =>
      match ← Act.inspect path with
      | .ok (.file _ true) => pure (some path)
      | _ => pure none

namespace Interpreter

variable (I : Interpreter)

/-- Does a program instead of the shell.  If that is not possible, the shell ends with a message that
begins with `label`. -/
def execute {α : Type} (label : String) (path : Bytes) (args : List Bytes) : Script α := do
  let stop (status : Nat) (why : String) : Script α := do
    complain (label.toList ++ args.head?.getD [] ++ ": ".toList ++ why.toList)
    I.leave status
  match ← Act.inspect path with
  | .error e =>
    if e = .missing ∨ e = .notDirectory then stop 127 "not found" else stop 126 e.message
  | .ok (.file _ true) =>
    match I.image (baseName path) with
    | none => stop 126 Fault.denied.message
    | some image =>
      let s ← Act.get
      Act.replace fun _ => image args s.exports
  | .ok _ => stop 126 Fault.denied.message

end Interpreter

end SmtCount.Simulation.Shell
