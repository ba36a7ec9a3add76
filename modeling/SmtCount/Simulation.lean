import SmtCount.Simulation.Kernel.Session
import SmtCount.Simulation.Shell.Start
import SmtCount.Solver.Environment

/-!
# Scripts as solvers

An environment whose programs can be run: the shell and the tools that scripts use, on a system that is
simulated as well.  The modules below this one are about these programs only.  They stand for one machine and
its clock, with times that are made up, and serve to try the library out on scripts that play the part of a
solver.  Nothing outside of them rests on what they say: the exchange with a solver and all that is proved of
it is about any `Environment`.

## Main definitions

* `Simulation.environment` — the environment.
-/

namespace SmtCount.Simulation

open Kernel (Fault FileTree Node Path Session)
open Shell (image?)

/-- The names of the programs that there are. -/
def programNames : List String := "sh" :: "dash" :: Tool.tools.map Prod.fst

/-- The variables that a program is given. -/
def startVariables (directory : Path) : Table Bytes Bytes :=
  .ofRows
    [("HOME".toList, "/root".toList),
      ("PATH".toList, "/usr/local/sbin:/usr/local/bin:/usr/sbin:/usr/bin:/sbin:/bin".toList),
      ("PWD".toList, FileTree.pathText directory)]

/-- Where a program is; a name without a slash is looked for among all programs. -/
def pathOf (name : Bytes) : Bytes :=
  if name.contains '/' || name.isEmpty then name else "/usr/bin/".toList ++ name

/-- Starts the program of a configuration in a directory. -/
def startProgram (workingDirectory : String) (config : SolverConfig) : Except Cause Session :=
  let directory := FileTree.pathOf (bytesOf workingDirectory)
  let tree := FileTree.standard programNames directory
  let name := bytesOf config.path
  let args := config.args.map bytesOf
  if (name :: args).any (·.contains (Char.ofNat 0)) then .error "nul byte found in provided data"
  else
    match tree.locate directory (pathOf name) with
    | .error fault => .error fault.message
    | .ok path =>
      match tree.node? path, (path.getLast?).bind image? with
      | some .executable, some image =>
        .ok (Session.start (image (name :: args) (startVariables directory)) tree directory
          (config.timeout.map Duration.nanos))
      | some _, _ => .error Fault.denied.message
      | none, _ => .error Fault.missing.message

/-- Writes to the input of the program. -/
def writeInput (s : Session) (text : String) : Except Cause Unit × Session :=
  let (sent, s) := s.write text
  (if sent then .ok () else .error Fault.brokenPipe.message, s)

/-- The environment in which the programs are the shell and the tools, and in which they start in a
directory. -/
def environment (workingDirectory : String) : Environment Session where
  spawn := startProgram workingDirectory
  write := writeInput
  closeInput := Session.closeInput
  readLine s := let (bs, s) := s.readLine Session.manySteps; (.ok (byteArrayOf bs), s)
  readRest s := let (bs, s) := s.readRest Session.manySteps .empty; (.ok bs, s)
  timedOut := Session.timedOut
  disarm := Session.disarm
  kill := Session.kill
  -- a program that was killed is gone at once
  reap := id
  elapsed s := s.system.now

end SmtCount.Simulation
