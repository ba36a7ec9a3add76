import SmtCount.Aggregator.Basic

/-!
# The operations of the aggregator

What the host asks for.  A task is split once, and asking for its sub-tasks again gives the same ones.

## Main definitions

* `request` — splits a task and gives its sub-tasks.
* `childDone` — takes the count of a sub-task.
* `allChildrenDone` — says how a task stands when every sub-task is believed to have reported.
* `phase?`, `forget` — how far a task has come, and dropping what is kept for it.
* `stats`, `Stats.lines` — the counters, and the report on them.
-/

namespace SmtCount.Aggregator

/-- Splits a task for which no entry was found. -/
def split (task : Task) : Action (List Task) := do
  let context ← acquireParentContext task
  let factorization := factorize task.expression context
  .say [factorization.line]
  let children ← issueChildren task factorization.factors
  let parent := task.parent.map Task.id
  let aggregation := Aggregation.start children
  match ← register task.id { parent, aggregation } with
  | some existing =>
    releaseParentContext parent
    pure existing.aggregation.children
  | none =>
    if aggregation.isFinal then releaseParentContext parent
    countSplit task.id children.length
    pure aggregation.children

/-- Splits a task into one sub-task for each factor of its expression.  Asking again gives the same
sub-tasks, or none when the count is final and there is nothing left to do. -/
def request (task : Task) : Action (List Task) := do
  .change fun s => { s with invocations := s.invocations + 1 }
  match ← findEntry task.id with
  | some entry => pure entry.aggregation.children
  | none => split task

/-- Takes the notification that the sub-task `sub` of a task has `count` models. -/
def childDone (task sub : TaskId) (count : Nat) : Action Completion := do
  match ← findEntry task with
  | none =>
    .say [⟨.warn, "task " ++ task.text ++ ": completion of " ++ sub.text ++
      " for a task that was never factored"⟩]
    pure (.failed (.unknownTask task))
  | some entry =>
    let (receipt, aggregation) := entry.aggregation.receive sub count
    .change fun s => { s with entries := s.entries.insert task { entry with aggregation } }
    .say (receipt.log task sub)
    if receipt.settles then releaseParentContext entry.parent
    pure receipt.completion

/-- Says how a task stands, to a host that believes every sub-task to have reported and was last told
`last` about the task.  Unless that is final already, a count that is missing is a count that was
lost. -/
def allChildrenDone (task : TaskId) (last : Completion) : Action Completion := do
  if last ≠ .pending then pure last
  else
    match ← findEntry task with
    | none => pure (.failed (.unknownTask task))
    | some entry =>
      if !entry.aggregation.isFinal then
        .say [⟨.error, "task " ++ task.text ++ ": " ++ entry.aggregation.outstanding.length.repr ++
          " sub-task(s) outstanding after all children reported, lost completion"⟩]
      pure (entry.aggregation.conclude task)

/-- How far a task has come, if it was split. -/
def phase? (task : TaskId) (s : Aggregator) : Option Phase :=
  (s.entries.get? task).map (·.aggregation.phase)

/-- Drops what is kept for a task, both as a task and as a parent. -/
def forget (task : TaskId) : Action Unit := do
  match ← findEntry task with
  | none => pure ()
  | some entry =>
    .change fun s => { s with entries := s.entries.erase task }
    -- a final count has given the context back when it became final
    if !entry.aggregation.isFinal then releaseParentContext entry.parent
  .change fun s => { s with contexts := s.contexts.erase task }

/-! ### Report -/

/-- The counters of the aggregator. -/
structure Stats where
  invocations : Nat
  totalConstraints : Nat
  factoredConstraints : Nat
  deriving DecidableEq, Repr

/-- The counters at some moment. -/
def stats (s : Aggregator) : Stats :=
  ⟨s.invocations, s.totalConstraints, s.factoredConstraints⟩

/-- The name under which the aggregator reports. -/
def component : String := "CountAggregator"

/-- The lines of a report. -/
def Stats.lines (s : Stats) : List String :=
  ["invocations = " ++ s.invocations.repr,
    "totalConstraints = " ++ s.totalConstraints.repr,
    "factoredConstraints = " ++ s.factoredConstraints.repr]

end SmtCount.Aggregator
