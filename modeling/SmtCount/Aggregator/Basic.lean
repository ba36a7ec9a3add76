import SmtCount.Aggregator.Aggregation
import SmtCount.Expr.Printer
import SmtCount.Factorization

/-!
# The state of the aggregator

The aggregator splits tasks and keeps one aggregation for each task it has split.  Tasks with the
same parent have most conjuncts in common, so it also keeps the factorization context of a parent as
long as a task that was split with it waits for counts.

Every operation is made of *sections*.  A section reads and changes one part of the state at once,
and other operations may run between two sections of one operation.

## Main definitions

* `Aggregator` — the state.
* `Aggregator.Action` — something that changes the state, says something to the log, and gives a
  value.
* `newTask`, `findEntry`, `acquireContext`, `releaseContext`, `issueChildren`, `register` — the
  sections.
-/

namespace SmtCount

/-- What is kept for a task that was split. -/
structure Entry where
  /-- The parent of the task. -/
  parent : Option TaskId
  aggregation : Aggregation
  deriving Repr

/-- The factorization context of a parent. -/
structure ContextSlot where
  context : FactorContext
  /-- How many unfinished tasks were split with the context. -/
  users : Nat
  deriving Repr

/-- The state of the aggregator. -/
structure Aggregator where
  /-- The number of the next task.  Sub-tasks and the tasks of the host share the numbers. -/
  nextTask : Nat := 1
  /-- The tasks that were split. -/
  entries : Table TaskId Entry := {}
  /-- The contexts that are in use, by parent. -/
  contexts : Table TaskId ContextSlot := {}
  /-- How many times sub-tasks were asked for. -/
  invocations : Nat := 0
  /-- How many tasks were split. -/
  totalConstraints : Nat := 0
  /-- How many sub-tasks they were split into. -/
  factoredConstraints : Nat := 0
  deriving Repr

namespace Aggregator

/-! ### Actions -/

/-- Something that changes the state, says something to the log, and gives a value. -/
def Action (α : Type) : Type :=
  Aggregator → α × Aggregator × Log

namespace Action

variable {α β : Type}

/-- Gives a value and does nothing. -/
def done (a : α) : Action α := fun s => (a, s, [])

/-- One action and then another, which may depend on the value of the first. -/
def andThen (x : Action α) (f : α → Action β) : Action β := fun s =>
  let (a, s, said) := x s
  let (b, s, more) := f a s
  (b, s, said ++ more)

instance : Monad Action where
  pure := done
  bind := andThen

/-- Reads something off the state. -/
def read (f : Aggregator → α) : Action α := fun s => (f s, s, [])

/-- Changes the state. -/
def change (f : Aggregator → Aggregator) : Action Unit := fun s => ((), f s, [])

/-- Says something to the log. -/
def say (log : Log) : Action Unit := fun s => ((), s, log)

end Action

/-! ### Sections -/

/-- Takes the next number for a new task. -/
def newTask (source : String) (parent : Option Task) (expression : Expr) : Action Task := fun s =>
  (.mk ⟨s.nextTask⟩ source parent expression, { s with nextTask := s.nextTask + 1 }, [])

/-- Looks up what is kept for a task. -/
def findEntry (task : TaskId) : Action (Option Entry) :=
  .read fun s => s.entries.get? task

/-- Takes the context of a parent for one more user, and makes it first if there is none. -/
def acquireContext (parent : Task) : Action FactorContext := fun s =>
  match s.contexts.get? parent.id with
  | some slot =>
    (slot.context,
      { s with contexts := s.contexts.insert parent.id { slot with users := slot.users + 1 } }, [])
  | none =>
    let context := FactorContext.ofFormula parent.fullExpression
    (context, { s with contexts := s.contexts.insert parent.id ⟨context, 1⟩ },
      [⟨.debug, "building factor context for parent " ++ parent.id.text⟩])

/-- Takes the context of the parent of a task, if the task has a parent. -/
def acquireParentContext (task : Task) : Action (Option FactorContext) :=
  match task.parent with
  | some parent => do
    let context ← acquireContext parent
    pure (some context)
  | none => pure none

/-- Gives the context of a parent back.  The last user drops it. -/
def releaseContext (parent : TaskId) : Action Unit := fun s =>
  match s.contexts.get? parent with
  | none => ((), s, [])
  | some slot =>
    if slot.users ≤ 1 then
      ((), { s with contexts := s.contexts.erase parent },
        [⟨.debug, "releasing factor context of parent " ++ parent.text⟩])
    else
      ((), { s with contexts := s.contexts.insert parent { slot with users := slot.users - 1 } }, [])

/-- Gives the context of a parent back, if there is a parent. -/
def releaseParentContext : Option TaskId → Action Unit
  | some parent => releaseContext parent
  | none => pure ()

/-- Makes a sub-task for each factor. -/
def issueChildren (task : Task) : List Expr → Action (List Task)
  | [] => pure []
  | factor :: factors => do
    .say [⟨.debug, "task " ++ task.id.text ++ ": issuing sub-task for " ++ factor.text⟩]
    let child ← newTask task.source none factor
    let children ← issueChildren task factors
    pure (child :: children)

/-- Keeps an entry for a task, unless there is one; then gives the one that there is. -/
def register (task : TaskId) (entry : Entry) : Action (Option Entry) := fun s =>
  match s.entries.get? task with
  | some existing => (some existing, s, [])
  | none => (none, { s with entries := s.entries.insert task entry }, [])

/-- Counts a task that was split into `issued` sub-tasks. -/
def countSplit (task : TaskId) (issued : Nat) : Action Unit := fun s =>
  ((), { s with
      totalConstraints := s.totalConstraints + 1
      factoredConstraints := s.factoredConstraints + issued },
    [⟨.info, "task " ++ task.text ++ ": factorized into " ++ issued.repr ++ " sub-task(s)"⟩])

end Aggregator

end SmtCount
