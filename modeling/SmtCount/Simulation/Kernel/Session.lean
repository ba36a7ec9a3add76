import SmtCount.Simulation.Kernel.Schedule

/-!
# A program seen from outside

One program runs with its input and its output connected to the outside by pipes.  Outside, writing
waits until there is room and reading until there is something, and all the while the processes go on.
If there is a time limit, the program is ended when it has passed; processes that the program has
started go on even then.

## Main definitions

* `Session` — a running program.
* `Session.write`, `Session.readLine`, `Session.readRest` — what is exchanged with it.
* `Session.kill`, `Session.disarm` — ending it, and letting it take its time.
-/

namespace SmtCount.Simulation.Kernel

/-- A running program. -/
structure Session where
  system : System
  process : Nat
  /-- The pipe from which the program reads. -/
  input : Nat
  /-- The pipe to which the program writes. -/
  output : Nat
  /-- What has been taken from the output and not been asked for yet. -/
  buffer : Bytes := []
  /-- When the program is ended. -/
  deadline : Option Nat := none
  timedOut : Bool := false

namespace Session

/-- How long it takes from outside to start a program. -/
def spawnNanos : Nat := 800000

/-- How long it takes outside to see what has been written. -/
def noticeNanos : Nat := 40000

/-- How many bytes are taken from the output at once. -/
def chunkSize : Nat := 8192

/-- More steps than a program takes. -/
def manySteps : Nat := 2 ^ 62

/-- Starts a program. -/
def start (program : Program) (tree : FileTree) (directory : Path) (deadline : Option Nat) : Session :=
  let (input, k) := System.addPipe { tree }
  let (output, k) := k.addPipe
  let pid := k.fresh
  let files := Table.ofRows [(0, .readEnd input), (1, .writeEnd output), (2, .null)]
  let k := { k with outside := [.writeEnd input, .readEnd output], fresh := pid + 1 }
  { system := k.put pid { program, due := spawnNanos + program.nanos, files, directory },
    process := pid, input, output, deadline }

/-- The time limit, if it has not passed. -/
def limit (s : Session) : Option Nat :=
  if s.timedOut then none else s.deadline

/-- Ends the program, unless it has ended. -/
def kill (s : Session) : Session :=
  match s.system.processes.get? s.process with
  | some p => { s with system := (s.system.deliver s.process p System.killSignal).wake }
  | none => s

/-- Ends the program because its time is over. -/
def expire (s : Session) : Session :=
  match s.limit with
  | none => s
  | some time =>
    kill { s with system := { s.system with now := max s.system.now time }, timedOut := true }

/-- Calls the time limit off. -/
def disarm (s : Session) : Session :=
  { s with deadline := none }

/-- Waits until something is so; says whether it has come to that. -/
def waitFor (goal : System → Bool) (s : Session) : Bool × Session :=
  match System.runUntil goal s.limit manySteps s.system with
  | (true, system) => (true, { s with system })
  | (false, system) =>
    let s := { s with system }
    if s.limit.isNone then (false, s)
    else
      let s := s.expire
      let (reached, system) := System.runUntil goal none manySteps s.system
      (reached, { s with system })

/-- Lets some time pass. -/
def linger (nanos : Nat) (s : Session) : Session :=
  let time := s.system.now + nanos
  match s.limit.filter (· ≤ time) with
  | some first =>
    let s := { s with system := System.runThrough first manySteps s.system }
    let s := s.expire
    { s with system := System.runThrough time manySteps s.system }
  | none => { s with system := System.runThrough time manySteps s.system }

/-- Writes some bytes, waiting for room at most `rounds` times. -/
def writeBytes : Nat → Bytes → Session → Bool × Session
  | 0, _, s => (false, s)
  | rounds + 1, bs, s =>
    match s.system.writeTo (.writeEnd s.input) bs with
    | (.error _, _) => (false, s)
    | (.ok [], system) => (true, linger 1000 { s with system := system.wake })
    | (.ok rest, system) =>
      match waitFor (·.canWrite s.input) { s with system := system.wake } with
      | (true, s) => writeBytes rounds rest (s.linger noticeNanos)
      | (false, s) => (false, s)

/-- Writes a text to the input of the program; says whether someone was left to read it. -/
def write (s : Session) (text : String) : Bool × Session :=
  let bs := bytesOf text
  if bs.isEmpty then (true, s) else writeBytes (bs.length + 1) bs s

/-- Ends the input of the program. -/
def closeInput (s : Session) : Session :=
  let system := { s.system with outside := s.system.outside.erase (.writeEnd s.input) }
  { s with system := system.wake }

/-- Takes some bytes from the output; none at its end. -/
def takeChunk (s : Session) : Bytes × Session :=
  match waitFor (·.canRead s.output) s with
  | (false, s) => ([], s)
  | (true, s) =>
    let s := s.linger noticeNanos
    match s.system.readFrom (.readEnd s.output) chunkSize with
    | some (.ok bs, system) => (bs, linger (10 * bs.length) { s with system := system.wake })
    | _ => ([], s)

/-- Reads up to the end of a line, or of the output. -/
def readLine : Nat → Session → Bytes × Session
  | 0, s => ([], s)
  | chunks + 1, s =>
    let line := s.buffer.takeWhile (· ≠ '\n')
    match s.buffer.drop line.length with
    | _ :: rest => (line ++ ['\n'], { s with buffer := rest })
    | [] =>
      let (bs, s) := s.takeChunk
      if bs.isEmpty then (line, { s with buffer := [] })
      else readLine chunks { s with buffer := line ++ bs }

/-- Reads up to the end of the output, and puts what is read after some bytes. -/
def readRest : Nat → ByteArray → Session → ByteArray × Session
  | 0, seen, s => (seen, s)
  | chunks + 1, seen, s =>
    let seen := s.buffer.foldl (fun bs c => bs.push (UInt8.ofNat c.toNat)) seen
    let (buffer, s) := s.takeChunk
    if buffer.isEmpty then (seen, { s with buffer })
    else readRest chunks seen { s with buffer }

end Session

end SmtCount.Simulation.Kernel
