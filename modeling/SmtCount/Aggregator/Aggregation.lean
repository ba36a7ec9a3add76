import SmtCount.Log
import SmtCount.Task

/-!
# The aggregation of one task

A task is split into sub-tasks, and its count is the product of theirs.  The counts arrive as
notifications, in any order and any number of times; each sub-task counts once, and a count of zero
decides the product at once.

```text
factored --> partway --> complete
    \           |
     +----------+--> earlyZero
```

## Main definitions

* `Aggregation` — what has arrived so far, and what is missing.
* `Receipt` — what a notification amounted to.
* `Aggregation.receive` — takes a notification.
* `Completion` — what the host is told.
-/

namespace SmtCount

/-- How far the aggregation of a task has come. -/
inductive Phase
  /-- Sub-tasks are issued and none has reported. -/
  | factored
  /-- Some sub-tasks have reported. -/
  | partway
  /-- Every sub-task has reported. -/
  | complete
  /-- A sub-task has reported zero. -/
  | earlyZero
  deriving DecidableEq, Repr

/-- Is there nothing left to wait for? -/
def Phase.isFinal : Phase → Bool
  | .complete | .earlyZero => true
  | .factored | .partway => false

/-- Why there is no count. -/
inductive Failure
  /-- The task was never split. -/
  | unknownTask (task : TaskId)
  /-- All sub-tasks are said to have reported, and some have not. -/
  | lostNotifications (task : TaskId) (outstanding : Nat)
  deriving DecidableEq, Repr

/-- The wording of a `Failure`. -/
def Failure.message : Failure → String
  | .unknownTask task => "task " ++ task.text ++ " was never factored"
  | .lostNotifications task outstanding =>
    "task " ++ task.text ++ " still waits for " ++ outstanding.repr ++ " sub-task(s)"

/-- What the host is told about a task. -/
inductive Completion
  /-- Counts are missing. -/
  | pending
  /-- The count is final. -/
  | done (count : Nat)
  /-- There is no count. -/
  | failed (failure : Failure)
  deriving DecidableEq, Repr

/-- The state of the aggregation of a task. -/
structure Aggregation where
  /-- The sub-tasks, as long as the count is not final. -/
  children : List Task
  /-- The sub-tasks that have not reported. -/
  outstanding : List TaskId
  /-- The product of the counts that were reported. -/
  product : Nat
  phase : Phase
  deriving Repr

/-- What a notification amounted to. -/
inductive Receipt
  /-- The count was final already. -/
  | late
  /-- The count of the sub-task is zero, and so is the count of the task. -/
  | zero
  /-- The sub-task is not waited for. -/
  | repeated
  /-- The last count that was missing; this is their product. -/
  | last (product : Nat)
  /-- One of the counts that were missing. -/
  | counted
  deriving DecidableEq, Repr

namespace Receipt

/-- What the host is told. -/
def completion : Receipt → Completion
  | .late | .repeated | .counted => .pending
  | .zero => .done 0
  | .last product => .done product

/-- Does the notification make the count final? -/
def settles : Receipt → Bool
  | .zero | .last _ => true
  | .late | .repeated | .counted => false

/-- The line about a notification that `sub` has a count for `task`. -/
def log (task sub : TaskId) : Receipt → Log
  | .late => [⟨.debug, "task " ++ task.text ++ ": ignoring late completion of " ++ sub.text⟩]
  | .zero =>
    [⟨.warn, "task " ++ task.text ++ ": sub-task " ++ sub.text ++ " has no models, count is zero"⟩]
  | .repeated =>
    [⟨.debug, "task " ++ task.text ++ ": ignoring repeated completion of " ++ sub.text⟩]
  | .last product => [⟨.debug, "task " ++ task.text ++ ": complete with count " ++ product.repr⟩]
  | .counted => []

end Receipt

namespace Aggregation

def isFinal (a : Aggregation) : Bool :=
  a.phase.isFinal

/-- Keeps a product as the final count, and drops everything that was for waiting only. -/
def settled (phase : Phase) (product : Nat) : Aggregation :=
  { children := [], outstanding := [], product, phase }

/-- The aggregation of a task that has been split into some sub-tasks.  Without any, the count is
final, and one. -/
def start (children : List Task) : Aggregation :=
  if children.isEmpty then settled .complete 1
  else { children, outstanding := children.map Task.id, product := 1, phase := .factored }

/-- Takes the notification that the sub-task `sub` has `count` models. -/
def receive (a : Aggregation) (sub : TaskId) (count : Nat) : Receipt × Aggregation :=
  if a.isFinal then (.late, a)
  -- zero decides the product, whoever reports it
  else if count = 0 then (.zero, settled .earlyZero 0)
  else if sub ∉ a.outstanding then (.repeated, a)
  else
    let product := a.product * count
    let outstanding := a.outstanding.erase sub
    if outstanding.isEmpty then (.last product, settled .complete product)
    else (.counted, { a with outstanding, product, phase := .partway })

/-- What the host is told when it believes that every sub-task has reported. -/
def conclude (a : Aggregation) (task : TaskId) : Completion :=
  if a.isFinal then .done a.product
  else .failed (.lostNotifications task a.outstanding.length)

/-! ### Final counts -/

theorem isFinal_settled {phase : Phase} (h : phase.isFinal = true) (product : Nat) :
    (settled phase product).isFinal = true := h

/-- A final count never changes. -/
theorem receive_of_isFinal {a : Aggregation} (h : a.isFinal = true) (sub : TaskId) (count : Nat) :
    a.receive sub count = (.late, a) := by
  simp [receive, h]

/-- After a notification the count is final exactly if it was before or the notification settled
it. -/
theorem isFinal_receive (a : Aggregation) (sub : TaskId) (count : Nat) :
    (a.receive sub count).2.isFinal = (a.isFinal || (a.receive sub count).1.settles) := by
  unfold receive
  split
  · simp_all [Receipt.settles]
  split
  · simp [Receipt.settles, settled, isFinal, Phase.isFinal]
  split
  · simp [Receipt.settles]
  dsimp only
  split
  · simp [Receipt.settles, settled, isFinal, Phase.isFinal]
  · simp_all [Receipt.settles, isFinal, Phase.isFinal]

end Aggregation

end SmtCount
