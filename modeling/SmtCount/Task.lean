import SmtCount.Expr.Basic

/-!
# Tasks

Units of work.  A task asks about an expression in the context of the tasks above it, whose
expressions hold as well.

## Main definitions

* `TaskId` — the identity of a task.
* `Task` — a task, with the tasks above it.
* `Task.fullExpression` — everything that holds for a task.
-/

namespace SmtCount

/-- The identity of a task.  Tasks are the same task when their identities are equal. -/
structure TaskId where
  number : Nat
  deriving DecidableEq, Hashable, Repr

/-- The text of an identity. -/
def TaskId.text (t : TaskId) : String :=
  "#" ++ t.number.repr

/-- A task. -/
inductive Task
  /-- A task with its identity, what it comes from, the task above it, and its own expression. -/
  | mk (id : TaskId) (source : String) (parent : Option Task) (expression : Expr)
  deriving Repr

namespace Task

def id : Task → TaskId
  | .mk id _ _ _ => id

/-- What the task comes from: a text that means nothing here and is handed on to its sub-tasks. -/
def source : Task → String
  | .mk _ source _ _ => source

def parent : Task → Option Task
  | .mk _ _ parent _ => parent

/-- The task's own expression. -/
def expression : Task → Expr
  | .mk _ _ _ expression => expression

/-- The expressions of the tasks above a task, topmost first, and its own. -/
def chain : Task → List Expr
  | .mk _ _ none expression => [expression]
  | .mk _ _ (some above) expression => chain above ++ [expression]

/-- Everything that holds for a task. -/
def fullExpression (t : Task) : Expr :=
  Expr.conjunction t.chain

end Task

end SmtCount
