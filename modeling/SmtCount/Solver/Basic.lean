import SmtCount.Answer.Core
import SmtCount.Query
import SmtCount.Report
import SmtCount.Solver.Exchange

/-!
# Solvers

A solver is a program to run and the time that was spent on running it.  Every call runs the program
anew.  Time counts when the exchange gave a verdict and an answer, whether or not the answer can be
read, and it counts for the verdict and for the total.

## Main definitions

* `SolverTimes` — accumulated time, in nanoseconds.
* `Solver` — a configuration and the accumulated time.
* `Solver.trySolve` — one call, with the reason why there is no answer.
* `Solver.solve`, `Solver.solveExpr` — one call, with the reason in the log.
-/

namespace SmtCount

/-- Accumulated time, in nanoseconds.  The counters are words of 64 bits that wrap around. -/
structure SolverTimes where
  total : UInt64 := 0
  sat : UInt64 := 0
  unsat : UInt64 := 0
  deriving DecidableEq, Repr

namespace SolverTimes

/-- A number of nanoseconds as a word: the greatest word, if there are more. -/
def nanosWord (nanos : Nat) : UInt64 :=
  UInt64.ofNat (min nanos (2 ^ 64 - 1))

/-- Adds to the total. -/
def addTotal (t : SolverTimes) (nanos : Nat) : SolverTimes :=
  { t with total := t.total + nanosWord nanos }

/-- Adds to the time of a verdict. -/
def addVerdict (t : SolverTimes) (verdict : Verdict) (nanos : Nat) : SolverTimes :=
  match verdict with
  | .sat => { t with sat := t.sat + nanosWord nanos }
  | .unsat => { t with unsat := t.unsat + nanosWord nanos }

/-- Adds the time of an exchange. -/
def record (t : SolverTimes) (verdict : Verdict) (nanos : Nat) : SolverTimes :=
  (t.addTotal nanos).addVerdict verdict nanos

/-- A counter in whole milliseconds. -/
def millis (nanos : UInt64) : Nat :=
  nanos.toNat / 1000000

/-- The lines of a report. -/
def lines (t : SolverTimes) : List String :=
  ["timeConsumption = " ++ (millis t.total).repr,
    "satTimeConsumption = " ++ (millis t.sat).repr,
    "unsatTimeConsumption = " ++ (millis t.unsat).repr]

end SolverTimes

/-- What a solver says about a query. -/
inductive SolveResult
  /-- The query is satisfiable, by this assignment. -/
  | sat (model : Model)
  /-- The query is not satisfiable, because of these conjuncts. -/
  | unsat (core : Core)

/-- A program to run, and the time that was spent on it. -/
structure Solver where
  config : SolverConfig
  times : SolverTimes := {}
  deriving Repr

/-- Reads the answer that belongs to a verdict. -/
def readAnswer (symbols : Table Variable String) (labels : Table String Expr) (answer : String) :
    Verdict → Except SolverError SolveResult
  | .sat =>
    match Model.read answer symbols with
    | .ok model => .ok (.sat model)
    | .error e => .error (.parse e)
  | .unsat => .ok (.unsat (Core.read answer labels))

namespace Solver

/-- The name under which a solver reports. -/
def component : String := "SolverProcess"

section

variable {σ : Type} (env : Environment σ)

/-- Runs a query, and says why there is no answer if there is none. -/
def trySolve (solver : Solver) (query : String) (symbols : Table Variable String)
    (labels : Table String Expr) : Except SolverError SolveResult × Solver :=
  match exchange env solver.config query with
  | .error e => (.error e, solver)
  | .ok (verdict, answer, nanos) =>
    (readAnswer symbols labels answer verdict,
      { solver with times := solver.times.record verdict nanos })

/-- The line about a call that has no answer.  A solver that does not answer is a warning; everything
else is an error, with its cause if it has one. -/
def failureLine (e : SolverError) : LogLine :=
  match e with
  | .protocol _ | .timeout _ => ⟨.warn, "solver gave no answer: " ++ e.message⟩
  | .spawn _ _ | .pipe _ | .parse _ =>
    match e.cause? with
    | some cause => ⟨.error, "solver call failed: " ++ e.message ++ ": " ++ cause⟩
    | none => ⟨.error, "solver call failed: " ++ e.message⟩

/-- Runs a query.  Why there is no answer goes to the log. -/
def solve (solver : Solver) (query : String) (symbols : Table Variable String)
    (labels : Table String Expr) : Option SolveResult × Log × Solver :=
  match solver.trySolve env query symbols labels with
  | (.ok result, solver) => (some result, [], solver)
  | (.error e, solver) => (none, [failureLine e], solver)

/-- Runs the query about a formula. -/
def solveExpr (solver : Solver) (formula : Expr) : Option SolveResult × Log × Solver :=
  let query := Query.ofFormula formula
  solver.solve env query.text query.symbols query.labels

end

end Solver

end SmtCount
