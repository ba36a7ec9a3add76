import Mathlib
import SmtCount.Proofs.Aggregator.Handles

/-!
# Counting each sub-task exactly once

Notifications for a task reach its entry one after another, since an entry is locked while it takes one;
in which order, is up to the schedule.  Whatever else runs at the same time, the entry comes to what the
order of its deliveries says, and every operation that delivered one is told what it amounted to at
that moment.

## Main definitions

* `Call.completion?` — what the host is going to be told by an operation that has got that far.
* `Workers.deliveries h` — the notifications that reach the entry of a handle during a run, in order.
* `Workers.Registers` — the next section of an operation is the one that keeps an entry for its task.

## Main results

* `Shared.Holds.run` — the entry after a run takes exactly the deliveries of the run.
* `Workers.completion?_of_delivery` — what the host is told by the operation behind a delivery.
* `Workers.registered_entry_counts_once` — **each sub-task counts exactly once**, in every interleaving of
  any operations.
-/

namespace SmtCount.Aggregator

/-! ### What an operation is going to answer -/

/-- What the host is going to be told by an operation: it may have to give a context back first. -/
def Call.completion? : Call → Option Completion
  | .release _ c => some c
  | .answered (.completion c) => some c
  | _ => none

/-- Once it is settled what the host is told, that does not change. -/
theorem Call.completion?_step {c : Call} {r : Completion} (h : c.completion? = some r) (s : Shared) :
    (c.step s).1.completion? = some r := by
  unfold Call.completion? at h
  split at h
  · exact h
  · exact h
  · cases h

/-- The operation that delivers a notification to an entry is told what it amounts to. -/
theorem Call.completion?_step_deliver {s : Shared} {h : Handle} {e : Entry} (hs : s.Holds h e)
    (sub : TaskId) (n : Nat) :
    ((Call.deliver h sub n).step s).1.completion? =
      some (e.aggregation.receive sub n).1.completion := by
  simp only [Call.step, hs.entry]
  split <;> rfl

/-- Has no section of the operation been run? -/
def Call.begins : Call → Bool
  | .request _ | .notify .. | .forget _ => true
  | _ => false

/-- What is about to be registered has just been issued. -/
theorem Call.nodup_ids_of_step_eq_register {s : Shared} {c : Call} {task : Task}
    {children : List Task} (h : (c.step s).1 = .register task children) :
    (children.map Task.id).Nodup := by
  cases c with
  | split task' context =>
    obtain ⟨-, rfl⟩ := Call.register.inj h
    exact nodup_ids_issueChildren task' _ s.state
  | lookUp _ | register _ _ | notify _ _ _ | deliver _ _ _ | forget _ | inspect _ =>
    rw [Call.step] at h
    grind
  | _ => cases h

/-! ### Runs -/

/-- A notification that has reached an entry, and the number of the operation that brought it. -/
structure Delivery where
  call : Nat
  notice : Aggregation.Notice
  deriving DecidableEq, Repr

/-- The notifications of some deliveries. -/
def notices (ds : List Delivery) : List Aggregation.Notice :=
  ds.map Delivery.notice

namespace Workers

variable {w : Workers} {h : Handle} {e : Entry}

/-- What the host is going to be told by the operation with a number. -/
def completion? (w : Workers) (i : Nat) : Option Completion :=
  w.calls[i]?.bind Call.completion?

/-- The notifications that reach the entry of a handle during a run, oldest first. -/
def deliveries (h : Handle) (w : Workers) : List Nat → List Delivery
  | [] => []
  | i :: schedule =>
    ((w.calls[i]?.bind (Call.delivery? h)).map (Delivery.mk i)).toList ++
      deliveries h (w.step i).1 schedule

theorem run_cons (w : Workers) (i : Nat) (schedule : List Nat) :
    (w.run (i :: schedule)).1 = ((w.step i).1.run schedule).1 := rfl

theorem step_of_none {i : Nat} (hi : w.calls[i]? = none) : (w.step i).1 = w := by
  simp only [step, hi]

theorem step_of_some {i : Nat} {c : Call} (hi : w.calls[i]? = some c) :
    (w.step i).1 = ⟨(c.step w.shared).2.1, w.calls.set i (c.step w.shared).1⟩ := by
  simp only [step, hi]

/-- The operation whose section was run. -/
theorem calls_step_self {i : Nat} {c : Call} (hi : w.calls[i]? = some c) :
    (w.step i).1.calls[i]? = some (c.step w.shared).1 := by
  obtain ⟨hlt, -⟩ := List.getElem?_eq_some_iff.mp hi
  rw [step_of_some hi]
  exact List.getElem?_set_self hlt

/-- The other operations stand where they stood. -/
theorem calls_step_of_ne {i j : Nat} (hij : i ≠ j) : (w.step i).1.calls[j]? = w.calls[j]? := by
  cases hi : w.calls[i]? with
  | none => rw [step_of_none hi]
  | some c => rw [step_of_some hi]; exact List.getElem?_set_ne hij

/-- Generations only grow. -/
theorem generation_le_run (w : Workers) (schedule : List Nat) (task : TaskId) :
    w.shared.generation task ≤ (w.run schedule).1.shared.generation task := by
  induction schedule generalizing w with
  | nil => exact Nat.le_refl _
  | cons i schedule ih =>
    refine Nat.le_trans ?_ (ih (w.step i).1)
    cases hi : w.calls[i]? with
    | none => exact Nat.le_of_eq (by rw [step_of_none hi])
    | some c => rw [step_of_some hi]; exact Shared.generation_le_step w.shared c task

theorem completion?_step {i j : Nat} {r : Completion} (hj : w.completion? j = some r) :
    (w.step i).1.completion? j = some r := by
  by_cases hij : i = j
  · subst hij
    obtain ⟨c, hc, hr⟩ := Option.bind_eq_some_iff.mp hj
    rw [completion?, calls_step_self hc]
    exact Call.completion?_step hr w.shared
  · rw [completion?, calls_step_of_ne hij]
    exact hj

theorem completion?_run {j : Nat} {r : Completion} (hj : w.completion? j = some r)
    (schedule : List Nat) : (w.run schedule).1.completion? j = some r := by
  induction schedule generalizing w with
  | nil => exact hj
  | cons i schedule ih => exact ih (completion?_step hj)

/-- **One step of a run**: the entry takes what the step delivers to it. -/
theorem holds_step (hs : w.shared.Holds h e) (i : Nat) :
    (w.step i).1.shared.Holds h (e.after (w.calls[i]?.bind (Call.delivery? h)).toList) := by
  cases hi : w.calls[i]? with
  | none => rw [step_of_none hi]; exact hs
  | some c => rw [step_of_some hi]; exact hs.step c

/-- **A run**: the entry takes the deliveries of the run, in their order. -/
theorem holds_run (hs : w.shared.Holds h e) (schedule : List Nat) :
    (w.run schedule).1.shared.Holds h (e.after (notices (w.deliveries h schedule))) := by
  induction schedule generalizing w e with
  | nil => exact hs
  | cons i schedule ih =>
    have hmap : notices (w.deliveries h (i :: schedule)) =
        (w.calls[i]?.bind (Call.delivery? h)).toList ++
          notices ((w.step i).1.deliveries h schedule) := by
      rw [deliveries, notices, List.map_append, notices]
      cases w.calls[i]?.bind (Call.delivery? h) <;> rfl
    rw [hmap, Entry.after_append, run_cons]
    exact ih (holds_step hs i)

/-- The host is told what a notification amounted to when it was delivered. -/
theorem completion?_of_delivery (hs : w.shared.Holds h e) {schedule : List Nat}
    {early late : List Delivery} {d : Delivery}
    (hd : w.deliveries h schedule = early ++ d :: late) :
    (w.run schedule).1.completion? d.call =
      some ((e.after (notices early)).aggregation.receive d.notice.sub d.notice.count).1.completion := by
  induction schedule generalizing w e early with
  | nil => simp [deliveries] at hd
  | cons i schedule ih =>
    rw [run_cons]
    have hstep := holds_step hs i
    rw [deliveries] at hd
    cases hi : w.calls[i]?.bind (Call.delivery? h) with
    | none =>
      rw [hi] at hd hstep
      exact ih hstep hd
    | some n =>
      rw [hi] at hd hstep
      cases early with
      | nil =>
        -- this is the delivery in question; what follows does not change what is told
        obtain ⟨rfl, -⟩ := List.cons.inj hd
        refine completion?_run ?_ schedule
        obtain ⟨c, hc, hn⟩ := Option.bind_eq_some_iff.mp hi
        obtain rfl := Call.eq_deliver_of_delivery? hn
        rw [completion?, calls_step_self hc]
        exact Call.completion?_step_deliver hs n.sub n.count
      | cons d' early =>
        obtain ⟨rfl, hrest⟩ := List.cons.inj hd
        exact ih hstep hrest

/-! ### No notification is lost -/

/-- A notification that has found its entry stays on its way until it is delivered. -/
theorem deliver_or_mem_deliveries {j : Nat} {sub : TaskId} {n : Nat}
    (hj : w.calls[j]? = some (.deliver h sub n)) (schedule : List Nat) :
    (w.run schedule).1.calls[j]? = some (.deliver h sub n) ∨
      ⟨j, ⟨sub, n⟩⟩ ∈ w.deliveries h schedule := by
  induction schedule generalizing w with
  | nil => exact .inl hj
  | cons i schedule ih =>
    rw [run_cons, deliveries]
    by_cases hij : i = j
    · subst hij
      refine .inr (List.mem_append_left _ ?_)
      simp [hj, Call.delivery?]
    · rw [← calls_step_of_ne hij] at hj
      exact (ih hj).imp_right (List.mem_append_right _)

/-- As long as a task is not forgotten, a notification for it finds its entry. -/
theorem notify_or_mem_deliveries (hs : w.shared.Holds h e) {j : Nat} {sub : TaskId} {n : Nat}
    (hj : w.calls[j]? = some (.notify h.task sub n)) {schedule : List Nat}
    (hgen : (w.run schedule).1.shared.generation h.task = h.generation) :
    (w.run schedule).1.calls[j]? = some (.notify h.task sub n) ∨
      (w.run schedule).1.calls[j]? = some (.deliver h sub n) ∨
        ⟨j, ⟨sub, n⟩⟩ ∈ w.deliveries h schedule := by
  induction schedule generalizing w e with
  | nil => exact .inl hj
  | cons i schedule ih =>
    rw [run_cons] at hgen ⊢
    by_cases hij : i = j
    · subst hij
      -- the generation at the end is the one of the handle, so it was at this moment
      have hnow : h.generation = w.shared.generation h.task := by
        refine Nat.le_antisymm hs.generation_le ?_
        rw [← hgen, ← run_cons]
        exact generation_le_run w (i :: schedule) h.task
      have hfound : (w.step i).1.calls[i]? = some (.deliver h sub n) := by
        rw [calls_step_self hj, Call.step, hs.handle? hnow]
      rw [deliveries]
      exact .inr ((deliver_or_mem_deliveries hfound schedule).imp_right (List.mem_append_right _))
    · rw [← calls_step_of_ne hij] at hj
      rw [deliveries]
      exact (ih (holds_step hs i) hj hgen).imp_right
        fun hrest => hrest.imp_right (List.mem_append_right _)

/-! ### Registration -/

/-- Is the next section of an operation the one that keeps an entry, with the sub-tasks that were
issued, for a task that has none? -/
def Registers (w : Workers) (i : Nat) (task : Task) (children : List Task) : Prop :=
  w.calls[i]? = some (.register task children) ∧ w.shared.handle? task.id = none

theorem holds_step_of_registers {i : Nat} {task : Task} {children : List Task}
    (hr : w.Registers i task children) :
    (w.step i).1.shared.Holds ⟨task.id, w.shared.generation task.id⟩
      ⟨task.parent.map Task.id, .start children⟩ := by
  obtain ⟨hi, hnew⟩ := hr
  rw [step_of_some hi, Call.step]
  split
  · rename_i hsome
    rw [hnew] at hsome
    cases hsome
  · exact Shared.holds_register hnew _

/-- The operation that keeps the entry of a task that waits goes on to answer with the sub-tasks. -/
theorem calls_step_of_registers {i : Nat} {task : Task} {children : List Task}
    (hr : w.Registers i task children) (hne : children ≠ []) :
    (w.step i).1.calls[i]? = some (.count task children) := by
  obtain ⟨hi, hnew⟩ := hr
  have hfinal : (Aggregation.start children).isFinal = false := by
    rw [Aggregation.start_eq_waiting hne, Aggregation.isFinal_waiting]
  rw [calls_step_self hi, Call.step]
  split
  · rename_i hsome
    rw [hnew] at hsome
    cases hsome
  · dsimp only
    rw [hfinal, if_neg Bool.false_ne_true]

/-- Only issued sub-tasks are registered, so no two of them are the same task. -/
theorem nodup_ids_of_register {w₀ : Workers} (hw : ∀ c ∈ w₀.calls, c.begins = true)
    (schedule : List Nat) {i : Nat} {task : Task} {children : List Task}
    (hi : (w₀.run schedule).1.calls[i]? = some (.register task children)) :
    (children.map Task.id).Nodup := by
  -- each section is followed by one that keeps the fact, whatever went before
  suffices hrun : ∀ w : Workers,
      (∀ (j : Nat) (task : Task) (children : List Task), w.calls[j]? = some (.register task children) →
        (children.map Task.id).Nodup) →
      (w.run schedule).1.calls[i]? = some (.register task children) →
        (children.map Task.id).Nodup by
    refine hrun w₀ (fun j task children hj => ?_) hi
    have := hw _ (List.mem_of_getElem? hj)
    cases this
  clear hi
  induction schedule with
  | nil => exact fun w hall hi => hall i task children hi
  | cons k schedule ih =>
    intro w hall hi
    refine ih (w.step k).1 (fun j task children hj => ?_) hi
    by_cases hkj : k = j
    · subst hkj
      cases hk : w.calls[k]? with
      | none =>
        rw [step_of_none hk, hk] at hj
        cases hj
      | some c =>
        rw [calls_step_self hk] at hj
        exact Call.nodup_ids_of_step_eq_register (Option.some.inj hj)
    · rw [calls_step_of_ne hkj] at hj
      exact hall j task children hj

/-! ### Counting once -/

open Aggregation (Decided waiting concluded unnamed)

/-- What a run makes of the entry of a handle, which was registered with the sub-tasks `children`.  Its
deliveries have an order, `ds`.

* As long as they do not decide the count, every one of them is answered by waiting on, and the entry
  holds the sub-tasks that were not named, of which there is one, and the product of the first counts of
  the others.
* Otherwise one delivery `d`, the first after which the count is known, is answered with the count: zero if
  that is what it carries, or else the product of the first counts of all sub-tasks.  All others,
  earlier and later, are answered by waiting on, and the entry holds nothing but the count. -/
def CountsOnce (w : Workers) (h : Handle) (parent : Option TaskId) (children : List Task)
    (schedule : List Nat) : Prop :=
  let ds := w.deliveries h schedule
  let w' := (w.run schedule).1
  let issued := children.map Task.id
  (¬Decided issued (notices ds) ∧ unnamed issued (notices ds) ≠ [] ∧
      w'.shared.entry? h = some ⟨parent, waiting children (notices ds)⟩ ∧
      ∀ d ∈ ds, w'.completion? d.call = some .pending) ∨
    ∃ early d late, ds = early ++ d :: late ∧
      ¬Decided issued (notices early) ∧ Decided issued (notices (early ++ [d])) ∧
      w'.shared.entry? h = some ⟨parent, concluded children (notices early) d.notice⟩ ∧
      w'.completion? d.call = some (.done (concluded children (notices early) d.notice).product) ∧
      ∀ d' ∈ early ++ late, w'.completion? d'.call = some .pending

/-- What the deliveries up to some delivery do not decide is not decided before, either. -/
theorem not_decided_before {issued : List TaskId} {early late : List Delivery} {d : Delivery}
    (h : ¬Decided issued (notices (early ++ d :: late))) :
    ¬Decided issued (notices early ++ [d.notice]) := fun hearly => h <| by
  rw [notices, List.map_append, List.map_cons, ← List.singleton_append, ← List.append_assoc]
  exact hearly.append _

/-- An entry that starts to wait for sub-tasks counts each of them once. -/
theorem countsOnce_of_holds {parent : Option TaskId} {children : List Task}
    (hs : w.shared.Holds h ⟨parent, .start children⟩) (hids : (children.map Task.id).Nodup)
    (hne : children ≠ []) (schedule : List Nat) : w.CountsOnce h parent children schedule := by
  unfold CountsOnce
  intro ds w' issued
  have hentry := (holds_run hs schedule).entry
  -- what the host is told, by the place of the delivery
  have htold (early late : List Delivery) (d : Delivery) (hd : ds = early ++ d :: late) :=
    completion?_of_delivery hs hd
  rcases Aggregation.receiveAll_start hids hne (notices ds) with
    ⟨hd, heq⟩ | ⟨before, n, after, hsplit, hd, hd', heq⟩
  · refine .inl ⟨hd, Aggregation.unnamed_ne_nil hd, ?_, fun d hmem => ?_⟩
    · rw [hentry, Entry.after, heq]
    · obtain ⟨early, late, hds⟩ := List.append_of_mem hmem
      rw [hds] at hd
      rw [htold early late d hds]
      exact congrArg some
        (Aggregation.completion_of_not_decided hids hne (not_decided_before hd))
  · obtain ⟨early, rest, hds, rfl, hrest⟩ := List.map_eq_append_iff.mp hsplit
    obtain ⟨d, late, rfl, rfl, rfl⟩ := List.map_eq_cons_iff.mp hrest
    have hdecides : notices (early ++ [d]) = notices early ++ [d.notice] := List.map_append
    refine .inr ⟨early, d, late, hds, hd, hdecides ▸ hd', ?_, ?_, fun d' hmem => ?_⟩
    · rw [hentry, Entry.after, heq]
      rfl
    · rw [htold early late d hds]
      exact congrArg some (Aggregation.completion_of_decides hids hne hd hd')
    · rcases List.mem_append.mp hmem with hmem | hmem
      · obtain ⟨early₁, late₁, rfl⟩ := List.append_of_mem hmem
        rw [htold early₁ (late₁ ++ d :: late) d' (by rw [hds]; simp)]
        exact congrArg some
          (Aggregation.completion_of_not_decided hids hne (not_decided_before hd))
      · obtain ⟨early₁, late₁, rfl⟩ := List.append_of_mem hmem
        have hall : Decided issued (notices (early ++ d :: early₁)) := by
          rw [← List.singleton_append, ← List.append_assoc, notices, List.map_append]
          exact (hdecides ▸ hd').append _
        rw [htold (early ++ d :: early₁) late₁ d' (by rw [hds]; simp)]
        exact congrArg some (Aggregation.completion_of_decided hids hne hall d'.notice)

/-- **Each sub-task counts exactly once.**  Operations of any kind, on any tasks, run at the same time, and
at some point one of them registers `task` with the sub-tasks `children`, which it goes on to answer
with.  From there on, however the run goes on, it counts each sub-task once; and as long as the task is
not forgotten, no notification for it misses the entry. -/
theorem registered_entry_counts_once {w₀ : Workers} (hw : ∀ c ∈ w₀.calls, c.begins = true)
    {before : List Nat} {i : Nat} {task : Task} {children : List Task}
    (hreg : (w₀.run before).1.Registers i task children) (hne : children ≠ []) (after : List Nat) :
    let h : Handle := ⟨task.id, (w₀.run before).1.shared.generation task.id⟩
    let w := ((w₀.run before).1.step i).1
    let w' := (w.run after).1
    w.calls[i]? = some (.count task children) ∧
      w.CountsOnce h (task.parent.map Task.id) children after ∧
      (w'.shared.generation task.id = h.generation →
        ∀ j sub n, w.calls[j]? = some (.notify task.id sub n) →
          w'.calls[j]? = some (.notify task.id sub n) ∨ w'.calls[j]? = some (.deliver h sub n) ∨
            ⟨j, ⟨sub, n⟩⟩ ∈ w.deliveries h after) := by
  intro h w w'
  have hs : w.shared.Holds h ⟨task.parent.map Task.id, .start children⟩ :=
    holds_step_of_registers hreg
  exact ⟨calls_step_of_registers hreg hne,
    countsOnce_of_holds hs (nodup_ids_of_register hw before hreg.1) hne after,
    fun hgen j sub n hj => notify_or_mem_deliveries hs hj hgen⟩

/-! ### An instance -/

/-- A task with two factors. -/
def pairTask : Task :=
  .mk ⟨1⟩ "host" none (.and [.var ⟨"x", .int, by decide⟩, .var ⟨"y", .int, by decide⟩])

/-- The sub-tasks of `pairTask`. -/
def pairChildren : List Task :=
  [.mk ⟨2⟩ "host" none (.var ⟨"x", .int, by decide⟩),
    .mk ⟨3⟩ "host" none (.var ⟨"y", .int, by decide⟩)]

/-- A request for the sub-tasks of `pairTask`, and three notifications.  The first sub-task reports twice,
with different counts. -/
def pairWorkers : Workers :=
  ⟨{ state := { nextTask := 2 } },
    [.request pairTask, .notify ⟨1⟩ ⟨2⟩ 3, .notify ⟨1⟩ ⟨2⟩ 7, .notify ⟨1⟩ ⟨3⟩ 5]⟩

/-- The first sub-task counts with what it reported first. -/
theorem pair_counts_once :
    let w := ((pairWorkers.run [0, 0, 0, 0]).1.step 0).1
    (∀ c ∈ pairWorkers.calls, c.begins = true) ∧
      (pairWorkers.run [0, 0, 0, 0]).1.Registers 0 pairTask pairChildren ∧ pairChildren ≠ [] ∧
      w.CountsOnce ⟨⟨1⟩, 0⟩ none pairChildren [0, 1, 1, 2, 2, 3, 3, 3] ∧
      (w.run [0, 1, 1, 2, 2, 3, 3, 3]).1.completion? 3 = some (.done 15) := by
  have hw : ∀ c ∈ pairWorkers.calls, c.begins = true := by simp [pairWorkers, Call.begins]
  have hreg : (pairWorkers.run [0, 0, 0, 0]).1.Registers 0 pairTask pairChildren :=
    ⟨by cbv, by cbv⟩
  have hne : pairChildren ≠ [] := List.cons_ne_nil _ _
  exact ⟨hw, hreg, hne, (registered_entry_counts_once hw hreg hne [0, 1, 1, 2, 2, 3, 3, 3]).2.1,
    by decide +kernel⟩

end Workers

end SmtCount.Aggregator
