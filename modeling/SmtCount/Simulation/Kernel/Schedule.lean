import SmtCount.Simulation.Kernel.Basic

/-!
# The course of time

Each call takes some time and then takes effect; which calls come first is decided by that alone.  A
call that cannot take effect waits until something has happened that makes it possible.

The times are those of a small machine: a call is quick, a process takes longer to start and to end.

## Main definitions

* `Program.nanos` — how long the next call takes.
* `System.perform` — the effect of a call.
* `System.step` — lets the next call take effect.
* `System.runUntil`, `System.runThrough` — lets calls take effect until something is so, or until a
  time.
-/

namespace SmtCount.Simulation.Kernel

/-- How long the next call of a program takes. -/
def Program.nanos : Program → Nat
  | .exit _ => 60000
  | .pause nanos _ => nanos
  | .fork .. => 80000
  | .replace _ => 350000
  | _ => 400

/-- How long it takes to read some bytes once they are there. -/
def copyNanos (bs : Bytes) : Nat := 2 * bs.length

/-- How long it takes to go on after waiting; longer after waiting for a child, so that a child that
sends a signal and ends has ended by then. -/
def Program.wakeNanos : Program → Nat
  | .await .. => 100000
  | _ => 15000

/-- How long it takes until a new process does its first call. -/
def startNanos : Nat := 40000

namespace System

variable (k : System)

/-! ### The effect of calls -/

/-- Goes on with a program after some time. -/
def proceedAfter (nanos pid : Nat) (p : Process) (program : Program) : System :=
  k.put pid { p with program, due := k.now + nanos + program.nanos, waiting := false }

/-- Goes on with a program. -/
def proceed (pid : Nat) (p : Process) (program : Program) : System :=
  k.proceedAfter 0 pid p program

/-- Goes on after a call on a handle, if the descriptor stands for one. -/
def withHandle (pid : Nat) (p : Process) (fd : Nat) (fail : Fault → Program)
    (act : Handle → System) : System :=
  match p.files.get? fd with
  | none => k.proceed pid p (fail .badDescriptor)
  | some h => act h

/-- The effect of writing. -/
def performWrite (pid : Nat) (p : Process) (fd : Nat) (bs : Bytes)
    (next : Except Fault Unit → Program) (h : Handle) : System :=
  match k.writeTo h bs with
  | (.ok [], k) => k.proceed pid p (next (.ok ()))
  | (.ok rest, k) => k.put pid { p with program := .write fd rest next, waiting := true }
  | (.error .brokenPipe, k) =>
    if (p.reactions.get? pipeSignal).getD .default = .default then
      k.terminate pid (signalStatus pipeSignal)
    else k.proceed pid p (next (.error .brokenPipe))
  | (.error e, k) => k.proceed pid p (next (.error e))

/-- The effect of making a descriptor stand for a handle. -/
def performBind (pid : Nat) (p : Process) (fd : Nat) (h : Handle) (program : Program) : System :=
  tidy (k.proceed pid { p with files := p.files.insert fd h } program)

/-- The children of a process, or one of them. -/
def childrenOf (pid : Nat) (child : Option Nat) : List (Nat × Process) :=
  k.processes.rows.filter fun (n, c) => c.parent == pid && (child == none || child == some n)

/-- The answer of waiting for a child; `none` if one has to wait. -/
def awaited (pid : Nat) (p : Process) (child : Option Nat) : Option Awaited :=
  let children := k.childrenOf pid child
  match children.findSome? fun (n, c) => c.status.map (n, ·) with
  | some (n, status) => some (.ended n status)
  | none =>
    if children.isEmpty then some .none
    else if p.noted.isEmpty then none
    else some .interrupted

/-- The effect of a call that changes files or fails. -/
def performChange (pid : Nat) (p : Process) (next : Except Fault Unit → Program) :
    Except Fault System → System
  | .ok k => k.proceed pid p (next (.ok ()))
  | .error e => k.proceed pid p (next (.error e))

/-- The effect of the next call of a process. -/
def perform (pid : Nat) (p : Process) : System :=
  match p.program with
  | .exit status => k.terminate pid (status % 256)
  | .pause _ next => k.proceed pid p (next ())
  | .read fd limit next =>
    k.withHandle pid p fd (fun e => next (.error e)) fun h =>
      match k.readFrom h limit with
      | some (.ok bs, k) => k.proceedAfter (copyNanos bs) pid p (next (.ok bs))
      | some (.error e, k) => k.proceed pid p (next (.error e))
      | none => k.put pid { p with waiting := true }
  | .write fd bs next =>
    k.withHandle pid p fd (fun e => next (.error e)) (k.performWrite pid p fd bs next)
  | .openFile path access next =>
    match k.openAt p path access with
    | .ok (h, k) =>
      let fd := freeDescriptor 0 p.files
      k.performBind pid p fd h (next (.ok fd))
    | .error e => k.proceed pid p (next (.error e))
  | .close fd next =>
    k.withHandle pid p fd (fun e => next (.error e)) fun _ =>
      tidy (k.proceed pid { p with files := p.files.erase fd } (next (.ok ())))
  | .copy source target next =>
    k.withHandle pid p source (fun e => next (.error e)) fun h =>
      k.performBind pid p target h (next (.ok ()))
  | .keep source least next =>
    k.withHandle pid p source (fun e => next (.error e)) fun h =>
      let fd := freeDescriptor least p.files
      k.performBind pid p fd h (next (.ok fd))
  | .newPipe next =>
    let (pipe, k) := k.addPipe
    let input := freeDescriptor 0 p.files
    let files := p.files.insert input (.readEnd pipe)
    let output := freeDescriptor 0 files
    k.proceed pid { p with files := files.insert output (.writeEnd pipe) } (next (input, output))
  | .fork child next =>
    let program := child ()
    let started :=
      { p with program, parent := pid, due := k.now + startNanos + program.nanos, noted := [] }
    ({ k with fresh := k.fresh + 1 }.put k.fresh started).proceed pid p (next k.fresh)
  | .replace image =>
    tidy (k.proceed pid
      { p with
        files := ⟨p.files.rows.filter fun r => r.1 < ownDescriptors⟩
        reactions := ⟨p.reactions.rows.filter fun r => r.2 = .ignore⟩
        noted := [] }
      (image ()))
  | .await child next =>
    match k.awaited pid p child with
    | none => k.put pid { p with waiting := true }
    | some (.ended n status) =>
      { k with processes := k.processes.erase n }.proceed pid p (next (.ended n status))
    | some answer => k.proceed pid p (next answer)
  | .signal target number next =>
    match k.processes.get? target with
    | none => k.proceed pid p (next (.error .noProcess))
    | some q =>
      let k := k.proceed pid p (next (.ok ()))
      if number = 0 || q.status.isSome then k
      else k.deliver target ((k.processes.get? target).getD q) number
  | .lead next => k.proceed pid { p with group := pid } (next ())
  | .signalGroup number next => (k.proceed pid p (next ())).deliverAll p.group number
  | .react number reaction next =>
    let old := (p.reactions.get? number).getD .default
    k.proceed pid { p with reactions := p.reactions.insert number reaction } (next old)
  | .arrived next => k.proceed pid { p with noted := [] } (next p.noted)
  | .identity next => k.proceed pid p (next pid)
  | .parent next => k.proceed pid p (next p.parent)
  | .inspect path next => k.proceed pid p (next (k.inspectAt p path))
  | .inspectOpen fd next =>
    k.withHandle pid p fd (fun e => next (.error e)) fun h =>
      k.proceed pid p (next (.ok (k.kindOf h)))
  | .remove path directory next => k.performChange pid p next (k.removeAt p path directory)
  | .makeDirectory path next => k.performChange pid p next (k.makeDirectoryAt p path)
  | .enter path next =>
    match k.tree.locate p.directory path with
    | .error e => k.proceed pid p (next (.error e))
    | .ok directory =>
      match k.tree.node? directory with
      | some .directory => k.proceed pid { p with directory } (next (.ok ()))
      | some _ => k.proceed pid p (next (.error .notDirectory))
      | none => k.proceed pid p (next (.error .missing))
  | .directory next => k.proceed pid p (next (FileTree.pathText p.directory))

/-! ### What comes next -/

/-- Can a process that waits go on? -/
def isReady (pid : Nat) (p : Process) : Bool :=
  match p.program with
  | .read fd _ _ =>
    match p.files.get? fd with
    | some (.readEnd pipe) => k.canRead pipe
    | _ => true
  | .write fd _ _ =>
    match p.files.get? fd with
    | some (.writeEnd pipe) => k.canWrite pipe
    | _ => true
  | .await child _ => (k.awaited pid p child).isSome
  | _ => true

/-- Processes that wait and can go on no longer wait. -/
def wake : System :=
  if k.processes.rows.any fun r => r.2.waiting then
    { k with
      processes := ⟨k.processes.rows.map fun (pid, p) =>
        if p.waiting && k.isReady pid p then
          (pid, { p with waiting := false, due := k.now + p.program.wakeNanos })
        else (pid, p)⟩ }
  else k

/-- The process whose call takes effect next. -/
def next? : Option (Nat × Process) :=
  k.processes.rows.foldl
    (fun best r =>
      if r.2.waiting || r.2.status.isSome then best
      else
        match best with
        | none => some r
        | some b => if r.2.due < b.2.due then some r else best)
    none

/-- Lets the next call take effect, unless that is after a time. -/
def step (limit : Option Nat) : Option System :=
  match k.next? with
  | none => none
  | some (pid, p) =>
    if limit.any (· < p.due) then none
    else
      let k := { k with now := max k.now p.due }
      some (k.perform pid p).wake

/-- Lets at most `steps` calls take effect, until something is so.  Says whether it has come to that
before nothing happens any more, or not before a time. -/
def runUntil (goal : System → Bool) (limit : Option Nat) : Nat → System → Bool × System
  | 0, k => (false, k)
  | steps + 1, k =>
    if goal k then (true, k)
    else
      match k.step limit with
      | none => (false, k)
      | some k => runUntil goal limit steps k

/-- Lets at most `steps` calls take effect, up to a time. -/
def runThrough (time : Nat) : Nat → System → System
  | 0, k => k
  | steps + 1, k =>
    match k.step (some time) with
    | none => { k with now := max k.now time }
    | some k => runThrough time steps k

end System

end SmtCount.Simulation.Kernel
