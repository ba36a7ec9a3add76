import SmtCount.Aggregator.Operations

/-!
# Operations that run at the same time

Several operations on one aggregator, each at its own section.  Between two sections of one operation
any sections of the others may run, so an operation has to keep what it learned in earlier sections,
and that may no longer be so.

An entry that is forgotten is out of reach for operations that look it up later, and stays in reach for
those that have looked it up before.  So an operation holds a *handle*, which tells the entries of one
task apart: the first one has generation zero, and forgetting an entry begins a new generation.

## Main definitions

* `Handle` — names an entry, whether or not it was forgotten.
* `Shared` — the state of the aggregator, with the entries that were forgotten.
* `Call` — where an operation stands.
* `Call.step` — runs one section of an operation.
* `Workers.run` — runs sections of several operations, in the order of a schedule.
-/

namespace SmtCount.Aggregator

/-- Names an entry. -/
structure Handle where
  task : TaskId
  generation : Nat
  deriving DecidableEq, Repr

/-- The state that operations share. -/
structure Shared where
  state : Aggregator := {}
  /-- How many entries of each task were forgotten. -/
  generations : Table TaskId Nat := {}
  /-- The entries that were forgotten. -/
  forgotten : Table Handle Entry := {}
  deriving Repr

namespace Shared

/-- The generation of the entry that a task has, or will have next. -/
def generation (s : Shared) (task : TaskId) : Nat :=
  (s.generations.get? task).getD 0

/-- The handle of the entry of a task, if there is one. -/
def handle? (s : Shared) (task : TaskId) : Option Handle :=
  (s.state.entries.get? task).map fun _ => ⟨task, s.generation task⟩

/-- The entry that a handle names. -/
def entry? (s : Shared) (h : Handle) : Option Entry :=
  if h.generation = s.generation h.task then s.state.entries.get? h.task else s.forgotten.get? h

/-- Changes the entry that a handle names. -/
def put (s : Shared) (h : Handle) (e : Entry) : Shared :=
  if h.generation = s.generation h.task then
    { s with state := { s.state with entries := s.state.entries.insert h.task e } }
  else { s with forgotten := s.forgotten.insert h e }

/-- Takes the entry of a task out of reach for later operations. -/
def detach (s : Shared) (task : TaskId) : Shared :=
  match s.state.entries.get? task with
  | none => s
  | some e =>
    { state := { s.state with entries := s.state.entries.erase task }
      generations := s.generations.insert task (s.generation task + 1)
      forgotten := s.forgotten.insert ⟨task, s.generation task⟩ e }

/-- Runs an action on the state of the aggregator. -/
def act {α : Type} (s : Shared) (x : Action α) : α × Shared × Log :=
  let (a, state, log) := x s.state
  (a, { s with state }, log)

end Shared

/-- The answer of an operation. -/
inductive Answer
  /-- The sub-tasks of a task. -/
  | children (tasks : List Task)
  /-- What the host is told. -/
  | completion (c : Completion)
  /-- The task is forgotten. -/
  | forgotten
  deriving Repr

/-- Where an operation stands: the section that it runs next, and what it has learned. -/
inductive Call
  /-- Asks for the sub-tasks of a task. -/
  | request (task : Task)
  /-- Looks for the entry of the task. -/
  | lookUp (task : Task)
  /-- Reads the sub-tasks off an entry. -/
  | readChildren (h : Handle)
  /-- Takes the context of the parent. -/
  | acquire (task : Task)
  /-- Factorizes, and makes a sub-task for each factor. -/
  | split (task : Task) (context : Option FactorContext)
  /-- Keeps an entry with the sub-tasks, unless the task has one by now. -/
  | register (task : Task) (children : List Task)
  /-- Gives the context back, because the task has another entry. -/
  | withdraw (task : Task) (h : Handle)
  /-- Gives the context back, because there is nothing to wait for. -/
  | settle (task : Task)
  /-- Counts the task. -/
  | count (task : Task) (children : List Task)
  /-- Has a count for a sub-task. -/
  | notify (task sub : TaskId) (count : Nat)
  /-- Gives the count to an entry. -/
  | deliver (h : Handle) (sub : TaskId) (count : Nat)
  /-- Gives the context of a parent back, because the count of a task is final. -/
  | release (parent : Option TaskId) (c : Completion)
  /-- Forgets a task. -/
  | forget (task : TaskId)
  /-- Looks whether a forgotten entry was final. -/
  | inspect (h : Handle)
  /-- Gives the context of the parent back, because an unfinished task was forgotten. -/
  | abandon (parent : Option TaskId) (task : TaskId)
  /-- Drops the context of the task as a parent. -/
  | dropContext (task : TaskId)
  /-- Has an answer. -/
  | answered (a : Answer)

namespace Call

/-- Runs the next section of an operation. -/
def step (s : Shared) : Call → Call × Shared × Log
  | .request task =>
    let (_, s, log) := s.act (.change fun st => { st with invocations := st.invocations + 1 })
    (.lookUp task, s, log)
  | .lookUp task =>
    match s.handle? task.id with
    | some h => (.readChildren h, s, [])
    | none => (.acquire task, s, [])
  | .readChildren h =>
    (.answered (.children (((s.entry? h).map fun e => e.aggregation.children).getD [])), s, [])
  | .acquire task =>
    let (context, s, log) := s.act (acquireParentContext task)
    (.split task context, s, log)
  | .split task context =>
    let factorization := factorize task.expression context
    let (children, s, log) := s.act (issueChildren task factorization.factors)
    (.register task children, s, factorization.line :: log)
  | .register task children =>
    let aggregation := Aggregation.start children
    -- another request may have split the task since this one looked it up
    match s.handle? task.id with
    | some h => (.withdraw task h, s, [])
    | none =>
      let (_, s, log) := s.act (Aggregator.register task.id ⟨task.parent.map Task.id, aggregation⟩)
      (if aggregation.isFinal then .settle task else .count task children, s, log)
  | .withdraw task h =>
    let (_, s, log) := s.act (releaseParentContext (task.parent.map Task.id))
    (.readChildren h, s, log)
  | .settle task =>
    let (_, s, log) := s.act (releaseParentContext (task.parent.map Task.id))
    (.count task [], s, log)
  | .count task children =>
    let (_, s, log) := s.act (countSplit task.id children.length)
    (.answered (.children children), s, log)
  | .notify task sub n =>
    match s.handle? task with
    | some h => (.deliver h sub n, s, [])
    | none =>
      let (c, s, log) := s.act (childDone task sub n)
      (.answered (.completion c), s, log)
  | .deliver h sub n =>
    match s.entry? h with
    | none => (.answered (.completion .pending), s, [])
    | some e =>
      let (receipt, aggregation) := e.aggregation.receive sub n
      let s := s.put h { e with aggregation }
      (if receipt.settles then .release e.parent receipt.completion
        else .answered (.completion receipt.completion), s, receipt.log h.task sub)
  | .release parent c =>
    let (_, s, log) := s.act (releaseParentContext parent)
    (.answered (.completion c), s, log)
  | .forget task =>
    match s.handle? task with
    -- operations that hold the handle keep working on the entry
    | some h => (.inspect h, s.detach task, [])
    | none => (.dropContext task, s, [])
  | .inspect h =>
    match s.entry? h with
    | some e =>
      (if e.aggregation.isFinal then .dropContext h.task else .abandon e.parent h.task, s, [])
    | none => (.dropContext h.task, s, [])
  | .abandon parent task =>
    let (_, s, log) := s.act (releaseParentContext parent)
    (.dropContext task, s, log)
  | .dropContext task =>
    let (_, s, log) := s.act (.change fun st => { st with contexts := st.contexts.erase task })
    (.answered .forgotten, s, log)
  | .answered a => (.answered a, s, [])

/-- The answer of an operation, if it has one. -/
def answer? : Call → Option Answer
  | .answered a => some a
  | _ => none

/-- How many sections an operation has at most. -/
def sectionLimit : Nat := 8

end Call

/-- Operations that run at the same time, and the state that they share. -/
structure Workers where
  shared : Shared := {}
  calls : List Call
  deriving Inhabited

namespace Workers

/-- Runs one section of the operation with a number; there may be no such operation. -/
def step (w : Workers) (i : Nat) : Workers × Log :=
  match w.calls[i]? with
  | none => (w, [])
  | some call =>
    let (call, shared, log) := call.step w.shared
    (⟨shared, w.calls.set i call⟩, log)

/-- Runs one section after another, as a schedule says. -/
def run (w : Workers) : List Nat → Workers × Log
  | [] => (w, [])
  | i :: schedule =>
    let (w, log) := w.step i
    let (w, more) := w.run schedule
    (w, log ++ more)

/-- The schedule in which every operation runs one section in turn, until all have answered. -/
def inTurn (w : Workers) : List Nat :=
  (List.replicate Call.sectionLimit (List.range w.calls.length)).flatten

/-- The answers of the operations that have one. -/
def answers (w : Workers) : List Answer :=
  w.calls.filterMap Call.answer?

end Workers

end SmtCount.Aggregator
