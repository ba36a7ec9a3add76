import SmtCount.Answer.Model
import SmtCount.Solver.Environment
import SmtCount.Text.Lines
import SmtCount.Text.Quoted

/-!
# The exchange with a solver

One call runs one program.  It gets the query and answers with a verdict, which is one line; then it
is asked for the model or for the core, and everything that it prints until it ends is the answer.

## Main definitions

* `Verdict` — satisfiable or not.
* `SolverError` — why a call has no answer.
* `converse` — what is said to the program and read from it.
* `release` — what is done about the program when nothing more is to be said.
* `exchange` — runs the program and gives the verdict and the text of the answer.
-/

namespace SmtCount

/-- What a solver finds out about a query. -/
inductive Verdict
  | sat
  | unsat
  deriving DecidableEq, Repr

namespace Verdict

/-- The verdict that a line gives: its only word says which.  Blanks around the word are ignored. -/
def ofLine? (line : String) : Option Verdict :=
  let word := Text.trim line.toList
  if word = "sat".toList then some .sat
  else if word = "unsat".toList then some .unsat
  else none

/-- What the solver is asked after the verdict. -/
def request : Verdict → String
  | .sat => "(get-model)"
  | .unsat => "(get-unsat-core)"

end Verdict

/-! ### Errors -/

/-- Why a call has no answer. -/
inductive SolverError
  /-- The program cannot be started. -/
  | spawn (program : String) (cause : Cause)
  /-- Something could not be written to the program or read from it. -/
  | pipe (cause : Cause)
  /-- The first line is no verdict, or there is none. -/
  | protocol (line : Option String)
  /-- The program took too long. -/
  | timeout (limit : Duration)
  /-- The model cannot be read. -/
  | parse (cause : ModelError)
  deriving DecidableEq, Repr

/-- A first line as messages show it. -/
def firstLineText : Option String → String
  | none => "None"
  | some line => "Some(" ++ Text.quote line ++ ")"

namespace SolverError

/-- The wording of a `SolverError`. -/
def message : SolverError → String
  | .spawn program _ => "failed to start solver `" ++ program ++ "`"
  | .pipe _ => "solver pipe failed"
  | .protocol line => "expected `sat` or `unsat` from solver, got " ++ firstLineText line
  | .timeout limit => "solver exceeded the time limit of " ++ limit.text
  | .parse _ => "unreadable solver output"

/-- What there is to say about a `SolverError` that comes from something else. -/
def cause? : SolverError → Option Cause
  | .spawn _ cause | .pipe cause => some cause
  | .parse cause => some cause.message
  | .protocol _ | .timeout _ => none

end SolverError

/-! ### The exchange -/

/-- Why output is no text, if its bytes are not those of one. -/
def notText : Cause := "stream did not contain valid UTF-8"

/-- The text that was read. -/
def decode (output : Except Cause ByteArray) : Except Cause String :=
  output.bind fun bytes =>
    match String.fromUTF8? bytes with
    | some text => .ok text
    | none => .error notText

/-- The first line of some output, without its end; `none` if there is no output. -/
def firstLine (output : String) : Option String :=
  if output.isEmpty then none else some (Text.dropLineEnds output)

section

variable {σ : Type} (env : Environment σ) (config : SolverConfig)

/-- The error of a call that the watchdog ended. -/
def timeLimitError : SolverError :=
  .timeout (config.timeout.getD .zero)

/-- Has the watchdog ended the program?  There is one only if there is a time limit. -/
def expired (s : σ) : Bool :=
  config.timeout.isSome && env.timedOut s

/-- Writes a message and ends its line. -/
def say (message : String) (s : σ) : Except Cause Unit × σ :=
  let (sent, s) := env.write s message
  match sent with
  | .error cause => (.error cause, s)
  | .ok () => env.write s "\n"

/-- Asks for the answer that belongs to a verdict, and reads it. -/
def fetchAnswer (verdict : Verdict) (s : σ) : Except SolverError (Verdict × String) × σ :=
  let (sent, s) := say env (verdict.request ++ "(exit)") s
  match sent with
  | .error cause => (.error (.pipe cause), s)
  | .ok () =>
    let (output, s) := env.readRest (env.closeInput s)
    match decode output with
    | .error cause => (.error (.pipe cause), s)
    | .ok text =>
      -- an answer that the watchdog may have cut off is no answer
      if expired env config s then (.error (timeLimitError config), s)
      else (.ok (verdict, Text.joinLines text), s)

/-- Sends the query, reads the verdict, and then the answer. -/
def converse (query : String) (s : σ) : Except SolverError (Verdict × String) × σ :=
  let (sent, s) := say env query s
  match sent with
  | .error cause => (.error (.pipe cause), s)
  | .ok () =>
    let (output, s) := env.readLine s
    match decode output with
    | .error cause => (.error (.pipe cause), s)
    | .ok text =>
      let line := firstLine text
      match line.bind Verdict.ofLine? with
      | none =>
        (.error (if expired env config s then timeLimitError config else .protocol line), s)
      | some verdict => fetchAnswer env config verdict s

/-- Ends what there is of a program: its input, its watchdog if it has one, and the program. -/
def release (s : σ) : σ :=
  let s := env.closeInput s
  let s := if config.timeout.isSome then env.disarm s else s
  env.reap (env.kill s)

/-- Runs the program of a configuration on a query, and ends it however the conversation went.  There is nothing
to run if it cannot be started. -/
def session (query : String) : Except Cause (Except SolverError (Verdict × String) × σ) :=
  (env.spawn config).map fun s =>
    let (result, s) := converse env config query s
    (result, release env config s)

/-- Runs the program of a configuration on a query.  Gives the verdict, the text of the answer and the
nanoseconds that it took. -/
def exchange (query : String) : Except SolverError (Verdict × String × Nat) :=
  match session env config query with
  | .error cause => .error (.spawn config.path cause)
  | .ok (result, s) => result.map fun (verdict, answer) => (verdict, answer, env.elapsed s)

end

end SmtCount
