import SmtCount.Solver.Basic

/-!
# Calls that run at the same time

Several calls of one solver.  Each call runs a program of its own, and all they share are the counters of the time
that was spent.  A call adds its time to the total first and to the counter of its verdict then; each addition is one
action, but between the two any actions of other calls may come.

## Main definitions

* `Solver.Inquiry` — what a solver is called with.
* `Solver.Stage` — where a call stands.
* `Solver.Caller.step` — the next action of a call.
* `Solver.Callers.run` — actions of several calls, in the order of a schedule.
-/

namespace SmtCount.Solver

/-- What a solver is called with, and the programs that it finds then. -/
structure Inquiry (σ : Type) where
  env : Environment σ
  query : String
  symbols : Table Variable String
  labels : Table String Expr
  /-- Does the reason why there is no answer go to the log? -/
  logged : Bool

/-- Where a call stands: what it does next, and what it has learned. -/
inductive Stage
  /-- Runs the program. -/
  | exchanging
  /-- Adds its time to the total. -/
  | charging (verdict : Verdict) (answer : String) (nanos : Nat)
  /-- Adds its time to that of the verdict. -/
  | crediting (verdict : Verdict) (answer : String) (nanos : Nat)
  /-- Reads the answer. -/
  | reading (verdict : Verdict) (answer : String)
  /-- Is over. -/
  | ended (outcome : Except SolverError SolveResult)

/-- A call. -/
structure Caller (σ : Type) where
  inquiry : Inquiry σ
  stage : Stage := .exchanging

namespace Caller

variable {σ : Type}

/-- Ends a call.  The line about a call without an answer is for those that keep a log. -/
def finish (c : Caller σ) (outcome : Except SolverError SolveResult) : Caller σ × Log :=
  ({ c with stage := .ended outcome },
    match outcome with
    | .error e => if c.inquiry.logged then [failureLine e] else []
    | .ok _ => [])

/-- Does the next thing in a call. -/
def step (solver : Solver) (c : Caller σ) : Caller σ × Solver × Log :=
  match c.stage with
  | .exchanging =>
    match exchange c.inquiry.env solver.config c.inquiry.query with
    | .error e =>
      let (c, log) := c.finish (.error e)
      (c, solver, log)
    | .ok (verdict, answer, nanos) => ({ c with stage := .charging verdict answer nanos }, solver, [])
  | .charging verdict answer nanos =>
    ({ c with stage := .crediting verdict answer nanos },
      { solver with times := solver.times.addTotal nanos }, [])
  | .crediting verdict answer nanos =>
    ({ c with stage := .reading verdict answer },
      { solver with times := solver.times.addVerdict verdict nanos }, [])
  | .reading verdict answer =>
    let (c, log) := c.finish (readAnswer c.inquiry.symbols c.inquiry.labels answer verdict)
    (c, solver, log)
  | .ended _ => (c, solver, [])

end Caller

/-- Calls that run at the same time, and the solver that they share. -/
structure Callers (σ : Type) where
  solver : Solver
  calls : List (Caller σ)

namespace Callers

variable {σ : Type}

/-- A solver that has not been called, and the calls to come. -/
def start (config : SolverConfig) (inquiries : List (Inquiry σ)) : Callers σ where
  solver := { config }
  calls := inquiries.map fun inquiry => { inquiry }

/-- Does the next thing in the call with a number; there may be no such call. -/
def step (w : Callers σ) (i : Nat) : Callers σ × Log :=
  match w.calls[i]? with
  | none => (w, [])
  | some c =>
    let (c, solver, log) := c.step w.solver
    (⟨solver, w.calls.set i c⟩, log)

/-- Does one thing after another, as a schedule says. -/
def run (w : Callers σ) : List Nat → Callers σ × Log
  | [] => (w, [])
  | i :: schedule =>
    let (w, log) := w.step i
    let (w, more) := w.run schedule
    (w, log ++ more)

end Callers

end SmtCount.Solver
