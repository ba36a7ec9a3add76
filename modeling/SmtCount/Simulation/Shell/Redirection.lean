import SmtCount.Simulation.Shell.Expansion

/-!
# Redirections

What descriptors stand for while a command runs.  The words of all redirections are expanded first,
and then one redirection after another takes effect.  What a descriptor stood for before is kept under
a descriptor of the shell's own.

## Main definitions

* `Redirection` — a redirection whose words are expanded.
* `redirectAll` — lets redirections take effect.
-/

namespace SmtCount.Simulation.Shell

open Kernel (Act Fault Access)

/-- What a descriptor is to stand for. -/
inductive Redirection
  | file (fd : Nat) (target : Target) (name : Bytes)
  /-- What another descriptor stands for. -/
  | copy (fd source : Nat)
  /-- Nothing. -/
  | none (fd : Nat)
  | document (fd : Nat) (text : Bytes)

def Redirection.fd : Redirection → Nat
  | .file fd _ _ | .copy fd _ | .none fd | .document fd _ => fd

/-- The wording of a fault in opening a file. -/
def openFault (creating : Bool) (e : Fault) : String :=
  if e = .missing ∨ e = .notDirectory then
    if creating then "Directory nonexistent" else "No such file"
  else e.message

/-- How many bytes of a text are handed on without a process of their own. -/
def documentRoom : Nat := 4096

/-- The descriptor of a file to be opened, or what is wrong. -/
def openTarget (target : Target) (name : Bytes) : Script (Except Bytes Nat) := do
  let creating := target ≠ .input
  let refuse (why : String) : Bytes :=
    (if creating then "cannot create " else "cannot open ").toList ++ name ++ ": ".toList ++ why.toList
  let protectedFile ←
    if target = .output && (← Act.get).isSet 'C' then do
      match ← Act.inspect name with
      | .ok (.file ..) => pure true
      | _ => pure false
    else pure false
  if protectedFile then pure (.error (refuse Fault.exists.message))
  else
    let access : Access := match target with
      | .input => .read
      | .output | .force => .write
      | .append => .append
      | .both => .update
    match ← Act.openFile name access with
    | .ok fd => pure (.ok fd)
    | .error e => pure (.error (refuse (openFault creating e)))

/-- The descriptor from which a text can be read. -/
def openDocument (text : Bytes) : Script Nat := do
  let (input, output) ← Act.newPipe
  if text.length ≤ documentRoom then
    let _ ← Act.write output text
  else
    let _ ← Act.fork do
      let _ ← Act.close input
      let _ ← Act.write output text
      pure 0
  let _ ← Act.close output
  pure input

/-- Keeps what a descriptor stands for, unless that has been kept before. -/
def keepOld (fd : Nat) : Script Unit := do
  match (← Act.get).kept with
  | [] => pure ()
  | frame :: frames =>
    if frame.any (·.1 == fd) then pure ()
    else
      let old ← Act.keep fd Kernel.ownDescriptors
      Act.modify fun s => { s with kept := ((fd, old.toOption) :: frame) :: frames }

/-- Moves what `source` stands for to `fd`, where the old meaning is kept. -/
def moveTo (source fd : Nat) (keeps : Bool) : Script Unit := do
  if source = fd then
    if keeps then
      Act.modify fun s =>
        match s.kept with
        | frame :: frames =>
          if frame.any (·.1 == fd) then s
          else { s with kept := ((fd, none) :: frame) :: frames }
        | [] => s
  else
    if keeps then keepOld fd
    let _ ← Act.copy source fd
    let _ ← Act.close source

/-- Lets a redirection take effect; gives what is wrong if it cannot. -/
def redirect (keeps : Bool) : Redirection → Script (Option Bytes)
  | .file fd target name => do
    match ← openTarget target name with
    | .error message => pure (some message)
    | .ok source =>
      moveTo source fd keeps
      pure none
  | .document fd text => do
    let source ← openDocument text
    moveTo source fd keeps
    pure none
  | .none fd => do
    if keeps then keepOld fd
    let _ ← Act.close fd
    pure none
  | .copy fd source =>
    if source = fd then pure none
    else do
      if keeps then keepOld fd
      match ← Act.copy source fd with
      | .ok () => pure none
      | .error e => pure (some (decimal source ++ ": ".toList ++ e.message.toList))

/-- Lets redirections take effect, one after another, up to the first that cannot. -/
def redirectAll (keeps : Bool) : List Redirection → Script (Option Bytes)
  | [] => pure none
  | r :: rest => do
    match ← redirect keeps r with
    | some message => pure (some message)
    | none => redirectAll keeps rest

/-- Lets redirections take effect until `restore`; says whether all of them could. -/
def enterRedirects (redirects : List Redirection) : Script Bool := do
  Act.modify fun s => { s with kept := [] :: s.kept }
  match ← redirectAll true redirects with
  | none => pure true
  | some message =>
    complain message
    setStatus 2
    pure false

namespace Interpreter

variable (I : Interpreter)

/-- Expands the words of a redirection. -/
def expandRedirect : Redirect → Script Redirection
  | .file fd target name => return .file fd target (← I.textOf name)
  | .copy fd number => do
    match ← I.textOf number with
    | ['-'] => return .none fd
    | [c] => if c.isDigit then return .copy fd (c.toNat - '0'.toNat) else I.fail "Bad fd number".toList
    | _ => I.fail "Bad fd number".toList
  | .document fd number => do
    let word := ((← Act.get).documents.get? number).getD []
    return .document fd (← I.textOf word)

/-- Expands the words of redirections. -/
def expandRedirects : List Redirect → Script (List Redirection)
  | [] => pure []
  | r :: rest => do
    let first ← I.expandRedirect r
    let more ← expandRedirects rest
    pure (first :: more)

end Interpreter

end SmtCount.Simulation.Shell
