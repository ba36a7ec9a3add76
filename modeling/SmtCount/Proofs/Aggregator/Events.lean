import Mathlib
import SmtCount.Proofs.Aggregator.References

/-!
# What requests do in a run

The sections of a run that matter to requests: a request begins, a request registers its task with the
sub-tasks that it has issued, or it finds the task registered by another and throws its sub-tasks away.
The counters of the aggregator count these events, late by what some operations have still to count; and
since sub-tasks take fresh numbers, no sub-task occurs in two of them.

## Main definitions

* `Event` — a section that matters to requests, and `Workers.events` — those of a run.
* `Workers.Tallied log w` — the counters have counted the events.
* `Workers.Fresh log w` — no two issued sub-tasks have one number.
* `Call.remaining` — how many sections an operation has before it, at most.

## Main results

* `Workers.Tallied.run`, `Workers.Fresh.run` — both hold along every run, of any operations.
* `Workers.answered_of_run` — an operation that runs often enough has an answer.
-/

namespace SmtCount.Aggregator

/-! ### Events -/

/-- A section that matters to requests. -/
inductive Event
  /-- A request for the sub-tasks of a task begins. -/
  | requested (task : Task)
  /-- A task is registered with the sub-tasks that a request has issued for it. -/
  | registered (task : Task) (children : List Task)
  /-- A request that has issued sub-tasks finds its task registered. -/
  | rejected (children : List Task)

namespace Event

/-- The tasks that were requested, once for each request. -/
def requests (log : List Event) : List Task :=
  log.filterMap fun
    | requested task => some task
    | _ => none

/-- The tasks that were registered, with their sub-tasks. -/
def registrations (log : List Event) : List (Task × List Task) :=
  log.filterMap fun
    | registered task children => some (task, children)
    | _ => none

/-- The sub-tasks that were thrown away. -/
def rejections (log : List Event) : List (List Task) :=
  log.filterMap fun
    | rejected children => some children
    | _ => none

@[simp] theorem requests_append (log new : List Event) :
    requests (log ++ new) = requests log ++ requests new := List.filterMap_append

@[simp] theorem registrations_append (log new : List Event) :
    registrations (log ++ new) = registrations log ++ registrations new := List.filterMap_append

@[simp] theorem rejections_append (log new : List Event) :
    rejections (log ++ new) = rejections log ++ rejections new := List.filterMap_append

theorem mem_requests_append {log : List Event} {task : Task} (h : task ∈ requests log) (new : List Event) :
    task ∈ requests (log ++ new) := by
  rw [requests_append]
  exact List.mem_append_left _ h

theorem mem_registrations_append {log : List Event} {r : Task × List Task} (h : r ∈ registrations log)
    (new : List Event) : r ∈ registrations (log ++ new) := by
  rw [registrations_append]
  exact List.mem_append_left _ h

end Event

open Event (requests registrations rejections)

/-- The event that the next section of an operation is. -/
def Call.event? (s : Shared) : Call → Option Event
  | .request task => some (.requested task)
  | .register task children =>
    some (if (s.handle? task.id).isSome then .rejected children else .registered task children)
  | _ => none

/-- The task that an operation is going to request. -/
def Call.request? : Call → Option Task
  | .request task => some task
  | _ => none

/-- The numbers of the sub-tasks that an operation has issued and not registered. -/
def Call.unregistered : Call → List TaskId
  | .register _ children => children.map Task.id
  | _ => []

/-- Has an operation registered a task and not counted it? -/
def Call.uncounted : Call → Bool
  | .settle _ | .count _ _ => true
  | _ => false

/-- Has the next section of an operation a context to give back before it counts? -/
def Call.settles : Call → Bool
  | .settle _ => true
  | _ => false

/-- How many sub-tasks an operation has registered and not counted. -/
def Call.uncountedFactors : Call → Nat
  | .count _ children => children.length
  | _ => 0

/-! ### What follows what -/

/-- Which section of an operation may follow which, with what it has learned there. -/
inductive Call.Next : Call → Call → Prop
  | lookUp (task : Task) : Next (.request task) (.lookUp task)
  | found (task : Task) (h : Handle) : Next (.lookUp task) (.readChildren h)
  | missing (task : Task) : Next (.lookUp task) (.acquire task)
  | read (h : Handle) (a : Answer) : Next (.readChildren h) (.answered a)
  | split (task : Task) (context : Option FactorContext) : Next (.acquire task) (.split task context)
  | register (task : Task) (context : Option FactorContext) (children : List Task) :
      Next (.split task context) (.register task children)
  | withdraw (task : Task) (children : List Task) (h : Handle) :
      Next (.register task children) (.withdraw task h)
  | settle (task : Task) (children : List Task) : Next (.register task children) (.settle task)
  | count (task : Task) (children : List Task) : Next (.register task children) (.count task children)
  | withdrawn (task : Task) (h : Handle) : Next (.withdraw task h) (.readChildren h)
  | settled (task : Task) : Next (.settle task) (.count task [])
  | counted (task : Task) (children : List Task) (a : Answer) : Next (.count task children) (.answered a)
  | deliver (task sub : TaskId) (n : Nat) (h : Handle) : Next (.notify task sub n) (.deliver h sub n)
  | unknown (task sub : TaskId) (n : Nat) (a : Answer) : Next (.notify task sub n) (.answered a)
  | release (h : Handle) (sub : TaskId) (n : Nat) (parent : Option TaskId) (c : Completion) :
      Next (.deliver h sub n) (.release parent c)
  | delivered (h : Handle) (sub : TaskId) (n : Nat) (a : Answer) : Next (.deliver h sub n) (.answered a)
  | released (parent : Option TaskId) (c : Completion) (a : Answer) : Next (.release parent c) (.answered a)
  | inspect (task : TaskId) (h : Handle) : Next (.forget task) (.inspect h)
  | nothing (task : TaskId) : Next (.forget task) (.dropContext task)
  | abandon (h : Handle) (parent : Option TaskId) : Next (.inspect h) (.abandon parent h.task)
  | final (h : Handle) : Next (.inspect h) (.dropContext h.task)
  | abandoned (parent : Option TaskId) (task : TaskId) : Next (.abandon parent task) (.dropContext task)
  | dropped (task : TaskId) (a : Answer) : Next (.dropContext task) (.answered a)
  | done (a : Answer) : Next (.answered a) (.answered a)

/-- **The sections of an operation follow one another** in this way. -/
theorem Call.next_step (s : Shared) (c : Call) : c.Next (c.step s).1 := by
  cases c with
  | request task => exact .lookUp task
  | lookUp task =>
    rw [Call.step]
    split
    · exact .found task _
    · exact .missing task
  | readChildren h => exact .read h _
  | acquire task => exact .split task _
  | split task context => exact .register task context _
  | register task children =>
    rw [Call.step]
    split
    · exact .withdraw task children _
    · dsimp only
      split
      · exact .settle task children
      · exact .count task children
  | withdraw task h => exact .withdrawn task h
  | settle task => exact .settled task
  | count task children => exact .counted task children _
  | notify task sub n =>
    rw [Call.step]
    split
    · exact .deliver task sub n _
    · exact .unknown task sub n _
  | deliver h sub n =>
    rw [Call.step]
    split
    · exact .delivered h sub n _
    · dsimp only
      split
      · exact .release h sub n _ _
      · exact .delivered h sub n _
  | release parent c => exact .released parent c _
  | forget task =>
    rw [Call.step]
    split
    · exact .inspect task _
    · exact .nothing task
  | inspect h =>
    rw [Call.step]
    split
    · dsimp only
      split
      · exact .final h
      · exact .abandon h _
    · exact .final h
  | abandon parent task => exact .abandoned parent task
  | dropContext task => exact .dropped task _
  | answered a => exact .done a

/-- How many sections an operation has before it, at most. -/
def Call.remaining : Call → Nat
  | .request _ => 7
  | .lookUp _ => 6
  | .acquire _ => 5
  | .split _ _ => 4
  | .register _ _ | .notify _ _ _ | .inspect _ => 3
  | .forget _ => 4
  | .withdraw _ _ | .settle _ | .deliver _ _ _ | .abandon _ _ => 2
  | .readChildren _ | .count _ _ | .release _ _ | .dropContext _ => 1
  | .answered _ => 0

theorem Call.answered_of_remaining {c : Call} (h : c.remaining = 0) : ∃ a, c = .answered a := by
  cases c with
  | answered a => exact ⟨a, rfl⟩
  | _ => cases h

namespace Call.Next

variable {c c' : Call}

/-- Every section brings an operation closer to its answer. -/
theorem remaining_le (h : c.Next c') : c'.remaining ≤ c.remaining - 1 := by
  cases h <;> simp [Call.remaining]

/-- No operation begins anew. -/
theorem begins_eq (h : c.Next c') : c'.begins = false := by
  cases h <;> rfl

theorem request?_eq (h : c.Next c') : c'.request? = none := by
  cases h <;> rfl

/-- Only the section that issues sub-tasks leaves some to be registered. -/
theorem unregistered_eq (h : c.Next c') (hc : ∀ task context, c ≠ .split task context) :
    c'.unregistered = [] := by
  cases h with
  | register task context children => exact absurd rfl (hc task context)
  | _ => rfl

/-- Only the section that registers a task leaves its sub-tasks to be counted. -/
theorem uncounted_eq (h : c.Next c') (hc : ∀ task children, c ≠ .register task children) :
    c'.uncounted = c.settles ∧ c'.uncountedFactors = 0 := by
  cases h with
  | withdraw task children _ => exact absurd rfl (hc task children)
  | settle task children => exact absurd rfl (hc task children)
  | count task children => exact absurd rfl (hc task children)
  | _ => exact ⟨rfl, rfl⟩

end Call.Next

/-! ### One section -/

/-- Does the next section of an operation take numbers for tasks, or count something? -/
def Call.numbers : Call → Bool
  | .request _ | .split _ _ | .count _ _ => true
  | _ => false

/-- **All other sections** leave the numbers of the aggregator alone. -/
theorem Call.state_step (s : Shared) {c : Call} (hc : c.numbers = false) :
    (c.step s).2.1.state = { s.state with
      entries := (c.step s).2.1.state.entries
      contexts := (c.step s).2.1.state.contexts } := by
  have heffect := c.effect_step s
  generalize (c.step s).2.1 = t at heffect ⊢
  cases heffect with
  | request _ | issue _ _ | count _ _ => cases hc
  | acquire task => exact acquireParentContext_eq task s.state
  | giveBack parent => exact releaseParentContext_eq parent s.state
  | deliver _ _ _ =>
    dsimp only [Shared.put]
    split <;> rfl
  | detach he =>
    rw [Shared.detach, he]
  | _ => rfl

/-- The event of a section that registers a task. -/
theorem Call.event?_register (s : Shared) (task : Task) (children : List Task) :
    (s.handle? task.id = none ∧
        Call.event? s (.register task children) = some (.registered task children)) ∨
      ∃ h, s.handle? task.id = some h ∧
        Call.event? s (.register task children) = some (.rejected children) := by
  cases hnew : s.handle? task.id with
  | none => exact .inl ⟨rfl, by rw [Call.event?, hnew]; rfl⟩
  | some h => exact .inr ⟨h, rfl, by rw [Call.event?, hnew]; rfl⟩

/-- Only the first section of a request is the event that it begins. -/
theorem Call.requests_event (s : Shared) (c : Call) :
    requests (c.event? s).toList = c.request?.toList := by
  cases c with
  | register task children =>
    rcases Call.event?_register s task children with ⟨-, hevent⟩ | ⟨_, -, hevent⟩
    · rw [hevent]
      rfl
    · rw [hevent]
      rfl
  | _ => rfl

/-- A section that is not a registration registers nothing. -/
theorem Call.registrations_event (s : Shared) (c : Call) :
    registrations (c.event? s).toList = [] ∨ ∃ task children, c = .register task children ∧
      s.handle? task.id = none ∧ registrations (c.event? s).toList = [(task, children)] := by
  cases c with
  | register task children =>
    rcases Call.event?_register s task children with ⟨hnew, hevent⟩ | ⟨_, -, hevent⟩
    · exact .inr ⟨task, children, rfl, hnew, by rw [hevent]; rfl⟩
    · exact .inl (by rw [hevent]; rfl)
  | _ => exact .inl rfl

/-- What an operation has to count after a section: what it has just registered. -/
theorem Call.uncounted_step (s : Shared) (c : Call) :
    (c.step s).1.uncounted.toNat = c.settles.toNat + (registrations (c.event? s).toList).length ∧
      (c.step s).1.uncountedFactors =
        ((registrations (c.event? s).toList).map fun r => r.2.length).sum := by
  have hother (hc : ∀ task children, c ≠ .register task children) := (Call.next_step s c).uncounted_eq hc
  cases c with
  | register task children =>
    rcases Call.event?_register s task children with ⟨hnew, hevent⟩ | ⟨h, hfound, hevent⟩
    · rw [hevent, Call.step, hnew]
      cases children <;> exact ⟨rfl, rfl⟩
    · rw [hevent, Call.step, hfound]
      exact ⟨rfl, rfl⟩
  | _ =>
    obtain ⟨huncounted, hfactors⟩ := hother fun _ _ h => Call.noConfusion h
    exact ⟨congrArg Bool.toNat huncounted, hfactors⟩

/-- **The counters after one section**, with what the operation has still to count. -/
theorem Call.tally_step (s : Shared) (c : Call) :
    (c.step s).2.1.state.invocations = s.state.invocations + (requests (c.event? s).toList).length ∧
      (c.step s).2.1.state.totalConstraints + (c.step s).1.uncounted.toNat =
        s.state.totalConstraints + c.uncounted.toNat + (registrations (c.event? s).toList).length ∧
      (c.step s).2.1.state.factoredConstraints + (c.step s).1.uncountedFactors =
        s.state.factoredConstraints + c.uncountedFactors +
          ((registrations (c.event? s).toList).map fun r => r.2.length).sum := by
  cases hc : c.numbers with
  | true =>
    cases c with
    | request task => exact ⟨rfl, rfl, rfl⟩
    | split task context =>
      rw [Call.state_split]
      exact ⟨rfl, rfl, rfl⟩
    | count task children => exact ⟨rfl, rfl, rfl⟩
    | _ => cases hc
  | false =>
    obtain ⟨huncounted, hfactors⟩ := Call.uncounted_step s c
    rw [Call.state_step s hc, huncounted, hfactors]
    cases c with
    | request _ | split _ _ | count _ _ => cases hc
    | register task children =>
      rcases Call.event?_register s task children with ⟨-, hevent⟩ | ⟨_, -, hevent⟩
      · rw [hevent]
        exact ⟨rfl, rfl, rfl⟩
      · rw [hevent]
        exact ⟨rfl, rfl, rfl⟩
    | _ => exact ⟨rfl, rfl, rfl⟩

/-- The numbers of the sub-tasks in some events. -/
def issuedIn (log : List Event) : List TaskId :=
  (registrations log).flatMap (fun r => r.2.map Task.id) ++ (rejections log).flatMap (List.map Task.id)

theorem issuedIn_append (log new : List Event) :
    (issuedIn (log ++ new)).Perm (issuedIn log ++ issuedIn new) := by
  refine List.perm_iff_count.mpr fun a => ?_
  simp only [issuedIn, Event.registrations_append, Event.rejections_append, List.flatMap_append,
    List.count_append]
  omega

/-- What an operation has issued and not registered after a section: what it has just issued. -/
theorem Call.unregistered_step (s : Shared) (c : Call) :
    (c.step s).1.unregistered = match c with
      | .split task context =>
        (List.range' s.state.nextTask (factorize task.expression context).factors.length).map TaskId.mk
      | _ => [] := by
  have hother (hc : ∀ task context, c ≠ .split task context) := (Call.next_step s c).unregistered_eq hc
  cases c with
  | split task context => exact map_id_issueChildren task _ s.state
  | _ => exact hother fun _ _ h => Call.noConfusion h

/-- **The numbers of sub-tasks after one section**: the sub-tasks that are issued take the next numbers, and
the others stay what they are. -/
theorem Call.mint_step (s : Shared) (c : Call) :
    ∃ k, (c.step s).2.1.state.nextTask = s.state.nextTask + k ∧
      issuedIn (c.event? s).toList ++ (c.step s).1.unregistered =
        c.unregistered ++ (List.range' s.state.nextTask k).map TaskId.mk := by
  rw [Call.unregistered_step]
  cases hc : c.numbers with
  | true =>
    cases c with
    | split task context =>
      rw [Call.state_split]
      exact ⟨_, rfl, rfl⟩
    | request task => exact ⟨0, rfl, rfl⟩
    | count task children => exact ⟨0, rfl, rfl⟩
    | _ => cases hc
  | false =>
    refine ⟨0, by rw [Call.state_step s hc]; rfl, ?_⟩
    cases c with
    | split _ _ => cases hc
    | register task children =>
      rcases Call.event?_register s task children with ⟨-, hevent⟩ | ⟨_, -, hevent⟩
      · rw [hevent]
        simp [issuedIn, registrations, rejections, Call.unregistered]
      · rw [hevent]
        simp [issuedIn, registrations, rejections, Call.unregistered]
    | _ => rfl

/-! ### Runs -/

namespace Workers

variable {w : Workers} {log : List Event}

/-- The events of a run, in order. -/
def events (w : Workers) : List Nat → List Event
  | [] => []
  | i :: schedule => (w.calls[i]?.bind (Call.event? w.shared)).toList ++ (w.step i).1.events schedule

theorem events_append (w : Workers) (early late : List Nat) :
    w.events (early ++ late) = w.events early ++ (w.run early).1.events late := by
  induction early generalizing w with
  | nil => rfl
  | cons i early ih =>
    rw [List.cons_append, events, events, ih, List.append_assoc, run_cons]

/-- What every step of a run keeps, with the events so far, holds after the run. -/
theorem events_induction {P : List Event → Workers → Prop}
    (hstep : ∀ log w i c, P log w → w.calls[i]? = some c →
      P (log ++ (c.event? w.shared).toList) (w.step i).1)
    (h : P log w) (schedule : List Nat) : P (log ++ w.events schedule) (w.run schedule).1 := by
  induction schedule generalizing w log with
  | nil =>
    rw [events, List.append_nil]
    exact h
  | cons i schedule ih =>
    rw [events, ← List.append_assoc, run_cons]
    refine ih ?_
    cases hi : w.calls[i]? with
    | none =>
      rw [step_of_none hi, Option.bind_none, Option.toList_none, List.append_nil]
      exact h
    | some c => exact hstep log w i c h hi

/-- **Every request is either among those that have begun, or still to come.** -/
theorem requests_perm (w : Workers) (schedule : List Nat) :
    (requests (w.events schedule) ++ (w.run schedule).1.calls.filterMap Call.request?).Perm
      (w.calls.filterMap Call.request?) := by
  have hstart : (requests [] ++ w.calls.filterMap Call.request?).Perm (w.calls.filterMap Call.request?) :=
    .refl _
  refine events_induction (P := fun log w' =>
    (requests log ++ w'.calls.filterMap Call.request?).Perm (w.calls.filterMap Call.request?)) ?_
    hstart schedule
  intro log w' i c hperm hi
  obtain ⟨others, hold, hnew⟩ := exists_others hi
  refine .trans ?_ hperm
  rw [Event.requests_append, Call.requests_event, step_of_some hi, List.append_assoc]
  refine .append_left _ ?_
  refine (((hnew _).filterMap Call.request?).append_left _).trans (.trans ?_ (hold.filterMap Call.request?).symm)
  rw [List.filterMap_cons_none (Call.next_step w'.shared c).request?_eq]
  cases c with
  | request task => exact .refl _
  | _ => exact .refl _

/-- The counters have counted the events, apart from what some operations have still to count. -/
structure Tallied (log : List Event) (w : Workers) : Prop where
  invocations : w.shared.state.invocations = (requests log).length
  total : w.shared.state.totalConstraints + w.calls.countP Call.uncounted = (registrations log).length
  factored : w.shared.state.factoredConstraints + (w.calls.map Call.uncountedFactors).sum =
    ((registrations log).map fun r => r.2.length).sum

theorem Tallied.step (hw : w.Tallied log) {i : Nat} {c : Call} (hi : w.calls[i]? = some c) :
    (w.step i).1.Tallied (log ++ (c.event? w.shared).toList) := by
  obtain ⟨hinvocations, htotal, hfactored⟩ := hw
  obtain ⟨hinvocations', htotal', hfactored'⟩ := Call.tally_step w.shared c
  obtain ⟨others, hold, hnew⟩ := exists_others hi
  have hnew := hnew (c.step w.shared).1
  rw [hold.countP_eq, countP_cons_toNat] at htotal
  rw [(hold.map Call.uncountedFactors).sum_eq, List.map_cons, List.sum_cons] at hfactored
  rw [step_of_some hi]
  refine ⟨?_, ?_, ?_⟩
  · rw [hinvocations', hinvocations, Event.requests_append, List.length_append]
  · rw [hnew.countP_eq, countP_cons_toNat, Event.registrations_append, List.length_append]
    dsimp only
    omega
  · rw [(hnew.map Call.uncountedFactors).sum_eq, List.map_cons, List.sum_cons,
      Event.registrations_append, List.map_append, List.sum_append]
    dsimp only
    omega

/-- **Along every run** the counters count the events. -/
theorem Tallied.run (hw : w.Tallied log) (schedule : List Nat) :
    (w.run schedule).1.Tallied (log ++ w.events schedule) :=
  events_induction (fun _ _ _ _ hw hi => hw.step hi) hw schedule

/-- The numbers of all sub-tasks that were issued. -/
def issued (log : List Event) (w : Workers) : List TaskId :=
  issuedIn log ++ w.calls.flatMap Call.unregistered

/-- Every sub-task has a number of its own, and the next task will have one, too. -/
structure Fresh (log : List Event) (w : Workers) : Prop where
  nodup : (issued log w).Nodup
  lt_next : ∀ id ∈ issued log w, id.number < w.shared.state.nextTask

theorem Fresh.step (hw : w.Fresh log) {i : Nat} {c : Call} (hi : w.calls[i]? = some c) :
    (w.step i).1.Fresh (log ++ (c.event? w.shared).toList) := by
  obtain ⟨others, hold, hnew⟩ := exists_others hi
  obtain ⟨k, hnext, hids⟩ := Call.mint_step w.shared c
  -- all that is new is the numbers that the section has taken
  have hperm : (issued (log ++ (c.event? w.shared).toList) (w.step i).1).Perm
      (issued log w ++ (List.range' w.shared.state.nextTask k).map TaskId.mk) := by
    refine List.perm_iff_count.mpr fun a => ?_
    have h₁ := congrArg (List.count a) hids
    have h₂ := (issuedIn_append log (c.event? w.shared).toList).count_eq a
    have h₃ := (hold.flatMap_right Call.unregistered).count_eq a
    have h₄ := ((hnew (c.step w.shared).1).flatMap_right Call.unregistered).count_eq a
    rw [step_of_some hi]
    simp only [issued, List.count_append, List.flatMap_cons] at h₁ h₂ h₃ h₄ ⊢
    omega
  have hmem {id : TaskId} (hid : id ∈ (List.range' w.shared.state.nextTask k).map TaskId.mk) :
      w.shared.state.nextTask ≤ id.number ∧ id.number < w.shared.state.nextTask + k := by
    obtain ⟨m, hm, rfl⟩ := List.mem_map.mp hid
    obtain ⟨j, hj, rfl⟩ := List.mem_range'.mp hm
    dsimp only
    omega
  have hstate : (w.step i).1.shared.state.nextTask = w.shared.state.nextTask + k := by
    rw [step_of_some hi]
    exact hnext
  refine ⟨hperm.nodup_iff.mpr (List.nodup_append'.mpr ⟨hw.nodup, ?_, ?_⟩), fun id hid => ?_⟩
  · exact (List.nodup_range' 1 Nat.one_pos).map fun _ _ h => TaskId.mk.inj h
  · intro id hold hnew
    have := hw.lt_next id hold
    have := (hmem hnew).1
    omega
  · rw [hstate]
    rcases List.mem_append.mp (hperm.subset hid) with hold | hnew
    · have := hw.lt_next id hold
      omega
    · exact (hmem hnew).2

/-- **Along every run** no two sub-tasks have one number. -/
theorem Fresh.run (hw : w.Fresh log) (schedule : List Nat) :
    (w.run schedule).1.Fresh (log ++ w.events schedule) :=
  events_induction (fun _ _ _ _ hw hi => hw.step hi) hw schedule

/-- **An operation that runs often enough has an answer.** -/
theorem answered_of_run {w : Workers} {j : Nat} {c : Call} (hj : w.calls[j]? = some c) {schedule : List Nat}
    (hcount : c.remaining ≤ schedule.count j) :
    ∃ a, (w.run schedule).1.calls[j]? = some (.answered a) := by
  induction schedule generalizing w c with
  | nil =>
    obtain ⟨a, rfl⟩ := Call.answered_of_remaining (Nat.le_zero.mp hcount)
    exact ⟨a, hj⟩
  | cons i schedule ih =>
    rw [run_cons]
    by_cases hij : i = j
    · subst hij
      refine ih (calls_step_self hj) ?_
      have hstep := (Call.next_step w.shared c).remaining_le
      rw [List.count_cons_self] at hcount
      omega
    · rw [List.count_cons_of_ne hij] at hcount
      exact ih ((calls_step_of_ne hij).trans hj) hcount

end Workers

end SmtCount.Aggregator
