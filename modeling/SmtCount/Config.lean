import SmtCount.Duration
import SmtCount.Table
import SmtCount.Text.Blank
import SmtCount.Text.Integer

/-!
# Solver configuration

Which solver to run, with which arguments, and how long to wait for it.  A configuration is read from
properties, which are texts under keys; what no property says is as by default.

## Main definitions

* `SolverConfig` — the configuration.
* `SolverConfig.standard` — the default.
* `SolverConfig.ofProperties` — the configuration that some properties describe.
-/

namespace SmtCount

/-- How to run a solver. -/
structure SolverConfig where
  /-- The program. -/
  path : String
  /-- Its arguments. -/
  args : List String
  /-- How long a call may take; without a limit it may take forever. -/
  timeout : Option Duration
  deriving DecidableEq, Repr

/-- Why properties describe no configuration. -/
inductive ConfigError
  /-- The time limit is no unsigned number of 64 bits. -/
  | invalidTimeout (value : String) (cause : Text.IntegerError)
  deriving DecidableEq, Repr

namespace SolverConfig

/-- The property that names the program. -/
def pathKey : String := "solver.path"

/-- The property that lists the arguments, between blanks. -/
def argsKey : String := "solver.args"

/-- The property that gives the time limit of a call in milliseconds. -/
def timeoutKey : String := "solver.timeout_ms"

/-- Arguments listed between blanks. -/
def splitArgs (args : String) : List String :=
  (Text.words args.toList).map String.ofList

/-- The default: the solver installed below the working directory, reading its input as SMT-LIB 2. -/
def standard (workingDirectory : String) : SolverConfig where
  path := workingDirectory ++ "/lib/z3/build/z3"
  args := splitArgs "-smt2 -in"
  timeout := none

/-- Reads a time limit, a number of milliseconds. -/
def readTimeout (value : String) : Except ConfigError Duration :=
  match Text.readUInt64 (Text.trim value.toList) with
  | .ok millis => .ok (.ofMillis millis)
  | .error cause => .error (.invalidTimeout value cause)

/-- The configuration that some properties describe. -/
def ofProperties (workingDirectory : String) (properties : Table String String) :
    Except ConfigError SolverConfig :=
  let config := standard workingDirectory
  let path := (properties.get? pathKey).getD config.path
  let args := ((properties.get? argsKey).map splitArgs).getD config.args
  match properties.get? timeoutKey with
  | none => .ok { config with path, args }
  | some value => (readTimeout value).map fun limit => { path, args, timeout := some limit }

end SolverConfig

/-- The wording of a `ConfigError`. -/
def ConfigError.message : ConfigError → String
  | .invalidTimeout value _ => "invalid value `" ++ value ++ "` for `" ++ SolverConfig.timeoutKey ++ "`"

end SmtCount
