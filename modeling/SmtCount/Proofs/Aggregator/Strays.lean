import Mathlib
import SmtCount.Proofs.Aggregator.Stages
import SmtCount.Proofs.Tables

/-!
# Notifications that go astray

A host may report a count for a task on behalf of something that the task was never split into.  Unless the
count is zero, which decides the product whoever reports it, the report does nothing at all: the task
is told to wait on, and the aggregator is the same as before.  So a run with such reports mixed in
comes to the same state as the run without them, and every other operation answers the same.

Here a run may also create tasks in between, so what is shown of a state is shown of every state that
an aggregator gets into.

## Main definitions

* `Move`, `Workers.play` — runs in which the host creates tasks between the sections of operations.
* `childrenOf log task` — the sub-tasks that `task` was registered with.
* `Registered log s` — every entry was kept when its task was registered.
* `Stray log c` — the operation `c` has a count for a task that the sub-task is none of.
* `IgnoresStrays counts` — reports that go astray with these counts do nothing.

## Main results

* `Registered.play` — what is kept was registered, along every run.
* `Stray.step` — **one section** of a report that went astray changes nothing.
* `Workers.play_append_strays` — the run with the reports and the run without them.
* `strays_are_ignored` — **only its own sub-tasks count for a task**, zero apart.
* `not_ignoresStrays` — a zero decides the count of a task, wherever it comes from.
-/

namespace SmtCount.Aggregator

open Event (registrations)

/-! ### Entries and the sub-tasks they were registered with -/

/-- The sub-tasks that a task was registered with, each time that it was. -/
def childrenOf (log : List Event) (task : TaskId) : List TaskId :=
  (registrations log).flatMap fun r => if r.1.id = task then r.2.map Task.id else []

theorem mem_childrenOf {log : List Event} {task sub : TaskId} :
    sub ∈ childrenOf log task ↔ ∃ r ∈ registrations log, r.1.id = task ∧ sub ∈ r.2.map Task.id := by
  simp only [childrenOf, List.mem_flatMap]
  refine exists_congr fun r => and_congr_right fun _ => ?_
  split
  · rename_i htask
    exact (and_iff_right htask).symm
  · rename_i htask
    exact ⟨fun hsub => absurd hsub List.not_mem_nil, fun hsub => absurd hsub.1 htask⟩

theorem childrenOf_append_left {log : List Event} {task sub : TaskId} (new : List Event)
    (h : sub ∈ childrenOf log task) : sub ∈ childrenOf (log ++ new) task := by
  rw [childrenOf, Event.registrations_append, List.flatMap_append]
  exact List.mem_append_left _ h

/-- Was every entry kept when its task was registered, with the sub-tasks that it waits for? -/
def Registered (log : List Event) (s : Shared) : Prop :=
  ∀ h e, s.entry? h = some e → ∃ r ∈ registrations log, r.1.id = h.task ∧ e.IsFor r.1 r.2

namespace Registered

variable {log : List Event} {s : Shared} {h : Handle} {e : Entry}

/-- An entry waits for nothing but sub-tasks of its task. -/
theorem outstanding_subset (hs : Registered log s) (he : s.entry? h = some e) :
    e.aggregation.outstanding ⊆ childrenOf log h.task := by
  obtain ⟨r, hr, hid, hfor⟩ := hs h e he
  exact fun sub hsub => mem_childrenOf.mpr ⟨r, hr, hid, hfor.outstanding_subset sub hsub⟩

/-- **One section** keeps no entry without a registration. -/
theorem step (hs : Registered log s) (c : Call) :
    Registered (log ++ (c.event? s).toList) (c.step s).2.1 := by
  intro h e' he'
  rw [Event.registrations_append]
  rcases Shared.exists_of_entry?_step he' with ⟨e, ns, he, rfl⟩ | ⟨task, children, rfl, hnew, hid, rfl⟩
  · obtain ⟨r, hr, hid, hfor⟩ := hs h e he
    exact ⟨r, List.mem_append_left _ hr, hid, hfor.after ns⟩
  · refine ⟨(task, children), List.mem_append_right _ ?_, hid.symm, Entry.isFor_start task children⟩
    have hhandle : s.handle? task.id = none := by rw [Shared.handle?, hnew]; rfl
    rw [Call.event?, hhandle]
    exact List.mem_singleton_self _

/-- Creating a task keeps no entry. -/
theorem newTask (hs : Registered log s) (source : String) (parent : Option Task) (expression : Expr) :
    Registered log (s.act (Aggregator.newTask source parent expression)).2.1 := hs

end Registered

/-! ### Runs in which the host creates tasks -/

/-- What happens next in a run. -/
inductive Move
  /-- The host creates a task. -/
  | create (source : String) (parent : Option Task) (expression : Expr)
  /-- The operation with a number runs its next section; there may be no such operation. -/
  | section (i : Nat)

/-- Is a move none of the operations with a number from `k` on? -/
def Move.isBelow (k : Nat) : Move → Bool
  | .create .. => true
  | .section i => decide (i < k)

namespace Workers

/-- Makes one move. -/
def move (w : Workers) : Move → Workers
  | .create source parent expression =>
    { w with shared := (w.shared.act (newTask source parent expression)).2.1 }
  | .section i => (w.step i).1

/-- Makes one move after another. -/
def play (w : Workers) (moves : List Move) : Workers :=
  moves.foldl move w

/-- The event that a move is. -/
def eventOf (w : Workers) : Move → List Event
  | .create .. => []
  | .section i => (w.calls[i]?.bind (Call.event? w.shared)).toList

/-- The events of a run, in order. -/
def eventsOf (w : Workers) : List Move → List Event
  | [] => []
  | m :: moves => w.eventOf m ++ (w.move m).eventsOf moves

theorem play_cons (w : Workers) (m : Move) (moves : List Move) :
    w.play (m :: moves) = (w.move m).play moves := rfl

theorem length_calls_move (w : Workers) (m : Move) : (w.move m).calls.length = w.calls.length := by
  cases m with
  | create source parent expression => rfl
  | «section» i =>
    rw [move]
    cases hi : w.calls[i]? with
    | none => rw [step_of_none hi]
    | some c => rw [step_of_some hi, List.length_set]

theorem length_calls_play (w : Workers) (moves : List Move) :
    (w.play moves).calls.length = w.calls.length := by
  induction moves generalizing w with
  | nil => rfl
  | cons m moves ih => rw [play_cons, ih, length_calls_move]

end Workers

namespace Registered

variable {log : List Event} {w : Workers}

theorem move (hw : Registered log w.shared) (m : Move) :
    Registered (log ++ w.eventOf m) (w.move m).shared := by
  cases m with
  | create source parent expression =>
    rw [Workers.eventOf, List.append_nil]
    exact hw.newTask source parent expression
  | «section» i =>
    rw [Workers.eventOf, Workers.move]
    cases hi : w.calls[i]? with
    | none =>
      rw [Workers.step_of_none hi, Option.bind_none, Option.toList_none, List.append_nil]
      exact hw
    | some c =>
      rw [Workers.step_of_some hi, Option.bind_some]
      exact hw.step c

/-- **Along every run** every entry is one that was registered. -/
theorem play (hw : Registered log w.shared) (moves : List Move) :
    Registered (log ++ w.eventsOf moves) (w.play moves).shared := by
  induction moves generalizing log w with
  | nil =>
    rw [Workers.eventsOf, List.append_nil]
    exact hw
  | cons m moves ih =>
    rw [Workers.eventsOf, ← List.append_assoc, Workers.play_cons]
    exact ih (hw.move m)

/-- A new aggregator keeps nothing. -/
theorem start (n : Nat) (calls : List Call) : Registered [] (Workers.start n calls).shared := by
  intro h e he
  rw [Workers.start, Shared.entry?] at he
  split at he <;> cases he

end Registered

/-! ### One report that goes astray -/

/-- A sub-task that is not waited for, and has models, is one that is ignored. -/
theorem receive_of_not_outstanding {a : Aggregation} {sub : TaskId} {count : Nat}
    (hsub : sub ∉ a.outstanding) (hcount : count ≠ 0) :
    a.receive sub count = (if a.isFinal then .late else .repeated, a) := by
  unfold Aggregation.receive
  rw [if_neg hcount, if_pos hsub]
  split <;> rfl

/-- Putting an entry back where it is changes nothing. -/
theorem Shared.put_self {s : Shared} {h : Handle} {e : Entry} (he : s.entry? h = some e) :
    s.put h e = s := by
  unfold Shared.entry? at he
  unfold Shared.put
  split at he
  · rename_i hgen
    rw [if_pos hgen, Table.insert_of_get? he]
  · rename_i hgen
    rw [if_neg hgen, Table.insert_of_get? he]

/-- **A report that goes astray** is answered by waiting on, and changes nothing. -/
theorem childDone_of_not_outstanding {s : Aggregator} {task sub : TaskId} {e : Entry} {count : Nat}
    (he : s.entries.get? task = some e) (hwaits : e.aggregation.isFinal = false)
    (hsub : sub ∉ e.aggregation.outstanding) (hcount : count ≠ 0) :
    childDone task sub count s = (.pending, s, Receipt.log task sub .repeated) := by
  have hreceive : e.aggregation.receive sub count = (.repeated, e.aggregation) := by
    rw [receive_of_not_outstanding hsub hcount, hwaits]
    rfl
  have hsame : s.entries.insert task { e with aggregation := e.aggregation } = s.entries :=
    Table.insert_of_get? he
  simp only [childDone, findEntry, Action.read, bind, Action.andThen, he, hreceive, Action.change, hsame]
  rfl

/-- A report for a task that is not registered is answered with a failure. -/
theorem Shared.act_childDone_fst {s : Shared} {task : TaskId} (hnew : s.handle? task = none) (sub : TaskId)
    (n : Nat) : (s.act (childDone task sub n)).1 = .failed (.unknownTask task) := by
  have he := Shared.get?_entries_of_handle? hnew
  simp only [Shared.act, childDone, findEntry, Action.read, bind, Action.andThen, he]
  rfl

/-- What an operation is that brings a report which goes astray, from its beginning to its answer.  The answer
is never a count. -/
inductive Straying (log : List Event) : Call → Prop
  | notify {task sub : TaskId} {n : Nat} (hcount : n ≠ 0) (hsub : sub ∉ childrenOf log task) :
      Straying log (.notify task sub n)
  | deliver {h : Handle} {sub : TaskId} {n : Nat} (hcount : n ≠ 0) (hsub : sub ∉ childrenOf log h.task) :
      Straying log (.deliver h sub n)
  | told {c : Completion} (hc : ∀ v, c ≠ .done v) : Straying log (.answered (.completion c))

namespace Straying

variable {log : List Event} {s : Shared} {c : Call}

/-- **One section** of a report that goes astray changes nothing. -/
theorem step {early : List Event} (hs : Registered early s) (hearly : early <+: log)
    (h : Straying log c) : (c.step s).2.1 = s ∧ Straying log (c.step s).1 := by
  cases h with
  | notify hcount hsub =>
    rw [Call.step]
    split
    · rename_i h hh
      obtain ⟨e, -, rfl⟩ := Option.map_eq_some_iff.mp hh
      exact ⟨rfl, .deliver hcount hsub⟩
    · rename_i hnew
      dsimp only
      rw [Shared.act_childDone hnew, Shared.act_childDone_fst hnew]
      exact ⟨rfl, .told fun v => Completion.noConfusion⟩
  | @deliver h sub n hcount hsub =>
    rw [Call.step]
    split
    · exact ⟨rfl, .told fun v => Completion.noConfusion⟩
    · rename_i e he
      obtain ⟨rest, rfl⟩ := hearly
      have hwaiting : sub ∉ e.aggregation.outstanding := fun hmem =>
        hsub (childrenOf_append_left rest (hs.outstanding_subset he hmem))
      rw [receive_of_not_outstanding hwaiting hcount]
      refine ⟨Shared.put_self he, ?_⟩
      cases e.aggregation.isFinal with
      | true => exact .told fun v => Completion.noConfusion
      | false => exact .told fun v => Completion.noConfusion
  | told hc => exact ⟨rfl, .told hc⟩

end Straying

/-- A report that goes astray is no event. -/
theorem Straying.event?_eq {log : List Event} {s : Shared} {c : Call} (h : Straying log c) :
    c.event? s = none := by
  cases h <;> rfl

/-- A report that goes astray is never answered with a count. -/
theorem Straying.completion?_ne {log : List Event} {c : Call} (h : Straying log c) (v : Nat) :
    c.completion? ≠ some (.done v) := by
  cases h with
  | told hc => exact fun hdone => hc v (Option.some.inj hdone)
  | _ => simp [Call.completion?]

/-! ### Runs -/

namespace Workers

section Mixed

variable {log : List Event} {w : Workers} {strays : List Call} {m : Move}

/-- What is not a report does the same whether or not there are reports. -/
theorem move_append_of_isBelow (hm : m.isBelow w.calls.length = true) :
    move ⟨w.shared, w.calls ++ strays⟩ m = ⟨(w.move m).shared, (w.move m).calls ++ strays⟩ ∧
      eventOf ⟨w.shared, w.calls ++ strays⟩ m = w.eventOf m := by
  cases m with
  | create source parent expression => exact ⟨rfl, rfl⟩
  | «section» i =>
    have hi : i < w.calls.length := of_decide_eq_true hm
    have hleft : (w.calls ++ strays)[i]? = w.calls[i]? := List.getElem?_append_left hi
    have hcall : w.calls[i]? = some w.calls[i] := List.getElem?_eq_getElem hi
    refine ⟨?_, ?_⟩
    · rw [move, move, step_of_some (hleft.trans hcall), step_of_some hcall, List.set_append_left _ _ hi]
    · rw [eventOf, eventOf, hleft]

/-- A report that goes astray changes nothing but where it stands. -/
theorem move_append_of_not_isBelow {early : List Event} (hw : Registered early w.shared)
    (hearly : early <+: log) (hm : ¬m.isBelow w.calls.length = true) (hstrays : ∀ c ∈ strays, Straying log c) :
    ∃ strays', move ⟨w.shared, w.calls ++ strays⟩ m = ⟨w.shared, w.calls ++ strays'⟩ ∧
      eventOf ⟨w.shared, w.calls ++ strays⟩ m = [] ∧ ∀ c ∈ strays', Straying log c := by
  cases m with
  | create source parent expression => exact absurd rfl hm
  | «section» i =>
    have hi : w.calls.length ≤ i := Nat.le_of_not_lt fun hi => hm (decide_eq_true hi)
    have hright : (w.calls ++ strays)[i]? = strays[i - w.calls.length]? := List.getElem?_append_right hi
    rw [move, eventOf, hright]
    cases hcall : strays[i - w.calls.length]? with
    | none => exact ⟨strays, step_of_none (hright.trans hcall), rfl, hstrays⟩
    | some c =>
      have hc := hstrays c (List.mem_of_getElem? hcall)
      obtain ⟨hshared, hstep⟩ := hc.step hw hearly
      refine ⟨strays.set (i - w.calls.length) (c.step w.shared).1, ?_, ?_, fun c' hc' => ?_⟩
      · rw [step_of_some (hright.trans hcall), hshared, List.set_append_right _ _ hi]
      · rw [Option.bind_some, hc.event?_eq]
        rfl
      · rcases List.mem_or_eq_of_mem_set hc' with hold | rfl
        · exact hstrays c' hold
        · exact hstep

/-- **A run with reports that go astray** comes to the same as the run without them. -/
theorem play_append_strays {moves : List Move} (hw : Registered log w.shared)
    (hstrays : ∀ c ∈ strays, Straying (log ++ eventsOf ⟨w.shared, w.calls ++ strays⟩ moves) c) :
    ∃ strays' : List Call, (∀ c ∈ strays', ∀ v, c.completion? ≠ some (.done v)) ∧
      play ⟨w.shared, w.calls ++ strays⟩ moves =
        ⟨(w.play (moves.filter (Move.isBelow w.calls.length))).shared,
          (w.play (moves.filter (Move.isBelow w.calls.length))).calls ++ strays'⟩ := by
  induction moves generalizing log w strays with
  | nil => exact ⟨strays, fun c hc => (hstrays c hc).completion?_ne, rfl⟩
  | cons m moves ih =>
    rw [eventsOf, ← List.append_assoc] at hstrays
    rw [play_cons]
    by_cases hm : m.isBelow w.calls.length = true
    · -- a move of the run without them
      have hsame : move ⟨w.shared, w.calls ++ strays⟩ m = ⟨(w.move m).shared, (w.move m).calls ++ strays⟩ ∧
          eventOf ⟨w.shared, w.calls ++ strays⟩ m = w.eventOf m := move_append_of_isBelow hm
      rw [List.filter_cons_of_pos hm, play_cons, hsame.1, ← length_calls_move w m]
      rw [hsame.1, hsame.2] at hstrays
      exact ih (hw.move m) hstrays
    · -- a section of a report
      obtain ⟨strays', hmove, hevent, hstrays'⟩ :=
        move_append_of_not_isBelow hw (List.append_assoc .. ▸ List.prefix_append _ _) hm hstrays
      rw [hmove, hevent, List.append_nil] at hstrays'
      rw [List.filter_cons_of_neg hm, hmove]
      exact ih hw hstrays'

end Mixed

end Workers

/-! ### Only its own sub-tasks count for a task -/

/-- Does an operation bring a report for a task from something that the task was never split into? -/
def Call.GoesAstray (counts : Nat → Prop) (log : List Event) : Call → Prop
  | .notify task sub n => counts n ∧ sub ∉ childrenOf log task
  | _ => False

open Workers (start)

/-- Do reports that go astray do nothing, when their counts are as said? -/
structure IgnoresStrays (counts : Nat → Prop) : Prop where
  /-- In every state that a run gets into, a report for a task whose count is not final is answered by
  waiting on, and leaves the state as it is. -/
  single : ∀ (n : Nat) (calls : List Call) (moves : List Move) (task sub : TaskId) (e : Entry) (count : Nat),
    (∀ c ∈ calls, c.begins = true) →
    let w := (start n calls).play moves
    w.shared.state.entries.get? task = some e → e.aggregation.isFinal = false →
    sub ∉ childrenOf ((start n calls).eventsOf moves) task → counts count →
    ∃ log, childDone task sub count w.shared.state = (.pending, w.shared.state, log)
  /-- A run of some operations with any number of such reports among them gets into the same state as the
  run of the same operations without the reports.  The operations get equally far in it, and so have the
  same answers; and no report is answered with a count. -/
  mixed : ∀ (n : Nat) (calls strays : List Call) (moves : List Move),
    (∀ c ∈ calls, c.begins = true) →
    (∀ c ∈ strays, c.GoesAstray counts ((start n (calls ++ strays)).eventsOf moves)) →
    let w := (start n (calls ++ strays)).play moves
    let w' := (start n calls).play (moves.filter (Move.isBelow calls.length))
    w.shared = w'.shared ∧ w.calls.take calls.length = w'.calls ∧
      ∀ c ∈ w.calls.drop calls.length, ∀ v, c.completion? ≠ some (.done v)

/-- **Only its own sub-tasks count for a task, zero apart.**  A report of another one with a count that is not
zero does nothing, in every state and in every run; and a count of zero decides the count of a task
whoever reports it. -/
theorem strays_are_ignored : IgnoresStrays (fun count => count ≠ 0) ∧
    ∀ (s : Aggregator) (task sub : TaskId) (e : Entry), s.entries.get? task = some e →
      e.aggregation.isFinal = false → (childDone task sub 0).Ensures s fun c t =>
        c = .done 0 ∧ t.entries.get? task = some { e with aggregation := .settled .earlyZero 0 } := by
  refine ⟨⟨?single, ?mixed⟩, ?zero⟩
  case single =>
    intro n calls moves task sub e count _ w he hwaits hsub hcount
    have hw : Registered ((start n calls).eventsOf moves) w.shared := (Registered.start n calls).play moves
    have hentry := (Shared.holds_handle he).entry
    exact ⟨_, childDone_of_not_outstanding he hwaits
      (fun hmem => hsub (hw.outstanding_subset hentry hmem)) hcount⟩
  case mixed =>
    intro n calls strays moves _ hstrays w w'
    have hstraying : ∀ c ∈ strays, Straying ([] ++ (start n (calls ++ strays)).eventsOf moves) c := by
      intro c hc
      cases c with
      | notify task sub count =>
        obtain ⟨hcount, hsub⟩ := hstrays _ hc
        exact .notify hcount hsub
      | _ => exact (hstrays _ hc).elim
    obtain ⟨strays', htold, hplay⟩ :=
      Workers.play_append_strays (w := start n calls) (Registered.start n calls) hstraying
    have hlength : w'.calls.length = calls.length := Workers.length_calls_play _ _
    have heq : w = ⟨w'.shared, w'.calls ++ strays'⟩ := hplay
    rw [heq]
    refine ⟨rfl, List.take_left' hlength, ?_⟩
    rw [List.drop_left' hlength]
    exact htold
  case zero =>
    intro s task sub e he hwaits
    have hzero : e.aggregation.receive sub 0 = (.zero, .settled .earlyZero 0) := by
      rw [Aggregation.receive, hwaits]
      rfl
    have hgives := childDone_of_entry he sub 0
    rw [hzero] at hgives
    exact hgives

/-- The run of `pairWorkers` with two reports that go astray, and a task that is created meanwhile. -/
def strayedMoves : List Move :=
  [.section 4] ++ List.replicate 6 (.section 0) ++
    [.section 1, .section 1, .section 4, .create "host" none .tt, .section 2, .section 5, .section 4,
      .section 5, .section 3, .section 2, .section 3, .section 3]

/-- The reports go by, and the last sub-task completes the count. -/
theorem pair_strays_are_ignored :
    let calls := Workers.pairWorkers.calls
    let strays : List Call := [.notify ⟨1⟩ ⟨9⟩ 7, .notify ⟨1⟩ ⟨4⟩ 2]
    let w := (start 2 (calls ++ strays)).play strayedMoves
    let w' := (start 2 calls).play (strayedMoves.filter (Move.isBelow calls.length))
    (∀ c ∈ calls, c.begins = true) ∧
      (∀ c ∈ strays, c.GoesAstray (fun count => count ≠ 0)
        ((start 2 (calls ++ strays)).eventsOf strayedMoves)) ∧
      w.shared = w'.shared ∧ w.calls.take calls.length = w'.calls ∧
        w'.completion? 3 = some (.done 15) := by
  intro calls strays w w'
  have hbegins : ∀ c ∈ calls, c.begins = true := by simp [calls, Workers.pairWorkers, Call.begins]
  have hstrays : ∀ c ∈ strays, c.GoesAstray (fun count => count ≠ 0)
      ((start 2 (calls ++ strays)).eventsOf strayedMoves) := by
    have hchildren : childrenOf ((start 2 (calls ++ strays)).eventsOf strayedMoves) ⟨1⟩ = [⟨2⟩, ⟨3⟩] := by
      decide +kernel
    simp [strays, Call.GoesAstray, hchildren]
  obtain ⟨hshared, hcalls, -⟩ := strays_are_ignored.1.mixed 2 calls strays strayedMoves hbegins hstrays
  exact ⟨hbegins, hstrays, hshared, hcalls, by decide +kernel⟩

/-- The host asks for the sub-tasks of `pairTask`, and creates a task of its own. -/
def pairMoves : List Move :=
  List.replicate 6 (.section 0) ++ [.create "host" none .tt]

/-- **A zero decides the count of a task**, wherever it comes from: the task is told that its count is zero
by a report of a task that is none of its sub-tasks. -/
theorem not_ignoresStrays : ¬IgnoresStrays fun _ => True := by
  intro h
  have htold := h.single 2 [.request Workers.pairTask] pairMoves ⟨1⟩ ⟨4⟩
    ⟨none, .start Workers.pairChildren⟩ 0 (by simp [Call.begins]) (by cbv) rfl (by decide +kernel) trivial
  obtain ⟨log, hlog⟩ := htold
  have hdone : (childDone ⟨1⟩ ⟨4⟩ 0 ((start 2 [.request Workers.pairTask]).play pairMoves).shared.state).1 =
      .done 0 := by decide +kernel
  rw [hlog] at hdone
  cases hdone

end SmtCount.Aggregator
