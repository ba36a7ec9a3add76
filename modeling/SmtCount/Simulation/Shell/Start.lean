import SmtCount.Simulation.Shell.Run
import SmtCount.Simulation.Tool.Collection

/-!
# Starting a shell

A shell takes its script from an argument, from a file, or from its input.  Commands inside of commands
are run by the same rules; the rules are given a depth that no script reaches.

## Main definitions

* `shellProgram` — a shell as a program.
* `runAt`, `imageAt` — how commands are run, and the programs there are, up to a depth.
-/

namespace SmtCount.Simulation.Shell

open Kernel (Act Program)
open Tool (Image)

/-- The state of a shell that begins. -/
def initialShell (name : Bytes) (args : List Bytes) (options : List Char)
    (environment : Table Bytes Bytes) : Shell :=
  let own : List (Bytes × Parameter) :=
    [("IFS".toList, { value := some [' ', '\t', '\n'] }), ("OPTIND".toList, { value := some ['1'] }),
      ("PS4".toList, { value := some ['+', ' '] })]
  let given := environment.rows.filterMap fun (name, value) =>
    if isName name && name ≠ "IFS".toList && name ≠ "OPTIND".toList then
      some (name, ({ value := some value, exported := true } : Parameter))
    else none
  { name, args, options, parameters := .ofRows (own ++ given) }

namespace Interpreter

variable (I : Interpreter)

/-- Runs the lines of a script that comes from a descriptor, each as soon as it is there. -/
def runInput (fd : Nat) : Nat → Source → Script Unit
  | 0, _ => pure ()
  | turns + 1, source => do
    match Reader.nextLine.run source with
    | .error .unfinished =>
      match ← Act.read fd 8192 with
      | .ok (c :: cs) => runInput fd turns { source with rest := source.rest ++ c :: cs }
      | _ => runInput fd turns { source with final := true }
    | .error (.wrong line message) =>
      Act.modify fun s => { s with line }
      I.fail message.toList
    | .ok (.none, _) => pure ()
    | .ok (.commands c _, source) =>
      Act.modify fun s =>
        { s with
          documents := source.documents.rows.foldl (fun t r => t.insert r.1 r.2) s.documents
          nextDocument := source.nextDocument }
      I.run {} c
      if (← Act.get).jump.isNone then
        let s ← Act.get
        runInput fd turns { source with documents := {}, nextDocument := s.nextDocument }

/-- Runs a script from a file. -/
def runScriptFile (path : Bytes) : Script Unit := do
  match ← Act.openFile path .read with
  | .error _ =>
    complain ("cannot open ".toList ++ path ++ ": No such file".toList)
    Act.exit 2
  | .ok fd =>
    let fd ← match ← Act.keep fd Kernel.ownDescriptors with
      | .ok own => do
        let _ ← Act.close fd
        pure own
      | .error _ => pure fd
    I.runInput fd Act.manyTurns { rest := [], final := false }

/-- A shell as a program. -/
def shellProgram (args : List Bytes) (environment : Table Bytes Bytes) : Program :=
  let name := args.head?.getD []
  let start (shell : Shell) (script : Script Unit) : Program :=
    Act.toProgram
      (do
        let process ← Act.identity
        let parent ← Act.parent
        Act.modify fun s =>
          { s with
            process
            parameters := s.parameters.insert "PPID".toList { value := some (decimal parent) } }
        script
        I.leave (← Act.get).status)
      shell
  match readOptions true (args.length + 1) { options := [], args := args.tail } with
  | .error message =>
    start (initialShell name [] [] environment) do
      complain message
      Act.exit 2
  | .ok r =>
    let shell := initialShell name r.args r.options environment
    if r.script then
      match r.args with
      | [] =>
        start { shell with line := 0 } do
          complain "-c requires an argument".toList
          Act.exit 2
      | text :: rest =>
        start { shell with name := rest.head?.getD name, args := rest.tail } do
          let status ← I.evaluate {} text
          setStatus status
    else
      match r.args with
      | path :: rest =>
        if r.options.contains 's' then
          start shell (I.runInput 0 Act.manyTurns { rest := [], final := false })
        else start { shell with name := path, args := rest } (I.runScriptFile path)
      | [] => start shell (I.runInput 0 Act.manyTurns { rest := [], final := false })

end Interpreter

mutual

/-- How commands are run that lie at most so deep inside of others. -/
def runAt : Nat → Mode → Command → Script Unit
  | 0, _, _ => Act.exit 2
  | depth + 1, mode, c => Interpreter.runCommand ⟨runAt depth, imageAt depth⟩ mode c

/-- The programs that run others at most so deep. -/
def imageAt : Nat → Bytes → Option Image
  | 0, _ => none
  | depth + 1, name =>
    match String.ofList name with
    | "sh" | "dash" => some (Interpreter.shellProgram ⟨runAt depth, imageAt depth⟩)
    | _ => Tool.tool? (imageAt depth) name

end

/-- The program with a name. -/
def image? (name : Bytes) : Option Image := imageAt Act.manyTurns name

end SmtCount.Simulation.Shell
