import Mathlib
import SmtCount.Proofs.Aggregator.Stages

/-!
# Requests at the same time

Requests and notifications, for any tasks, run at the same time, in any order of their sections.  Each task
is split into one family of sub-tasks, which is never lost or doubled; the counters and the users of
contexts come out as if the tasks had been requested one after another.

## Main definitions

* `Workers.Memoized w₀ log w` — the invariant of a run that began with `w₀`.
* `Workers.AtRest w` — no operation is under way.
* `Workers.MemoizesRequests w₀ schedule` — nothing is lost and nothing is done twice in a run.

## Main results

* `Workers.Memoized.step`, `Workers.Memoized.run` — the invariant holds along every run.
* `Workers.requests_are_memoized` — **requests are answered once and for all**.
-/

namespace SmtCount.Aggregator

open Event (requests registrations rejections)

/-! ### Runs -/

namespace Workers

variable {w₀ w : Workers} {log : List Event}

/-- What holds along a run that began with `w₀`, after some events. -/
structure Memoized (w₀ : Workers) (log : List Event) (w : Workers) : Prop where
  recorded : Recorded log w.shared
  stages : ∀ (i : Nat) (c : Call), w.calls[i]? = some c → ∃ c₀, w₀.calls[i]? = some c₀ ∧ Stage log w.shared.state c₀ c
  /-- A request that has begun is on its way. -/
  begun : ∀ task ∈ requests log, ∃ (i : Nat) (c : Call), w₀.calls[i]? = some (.request task) ∧ w.calls[i]? = some c ∧
    c.begins = false

/-- Are the tasks that are requested the same if they have the same identity? -/
def UniqueTasks (w₀ : Workers) : Prop :=
  ∀ t u, Call.request t ∈ w₀.calls → Call.request u ∈ w₀.calls → t.id = u.id → t = u

theorem Memoized.step (hw : Memoized w₀ log w) (hunique : w₀.UniqueTasks) {i : Nat} {c : Call}
    (hi : w.calls[i]? = some c) :
    Memoized w₀ (log ++ (c.event? w.shared).toList) (w.step i).1 := by
  obtain ⟨c₀, hc₀, hstage⟩ := hw.stages i c hi
  have hrequests : ∀ t ∈ requests log, Call.request t ∈ w₀.calls := by
    intro t ht
    obtain ⟨j, -, hj, -⟩ := hw.begun t ht
    exact List.mem_of_getElem? hj
  have hshared : (w.step i).1.shared = (c.step w.shared).2.1 := by rw [step_of_some hi]
  refine ⟨?_, ?_, ?_⟩
  · rw [hshared]
    exact hw.recorded.step hstage
  · intro j c' hj
    rw [hshared]
    by_cases hij : i = j
    · subst hij
      rw [calls_step_self hi] at hj
      obtain rfl := Option.some.inj hj
      exact ⟨c₀, hc₀, hstage.step hw.recorded fun t ht u hu =>
        hunique t u (hrequests t ht) (hrequests u hu)⟩
    · rw [calls_step_of_ne hij] at hj
      obtain ⟨c₁, hc₁, hstage₁⟩ := hw.stages j c' hj
      refine ⟨c₁, hc₁, hstage₁.mono _ fun id e he hfinal => ?_⟩
      obtain ⟨ns, hns⟩ := hw.recorded.get?_step hstage.ne_forget he
      exact ⟨_, hns, Entry.isFinal_after hfinal ns⟩
  · intro task htask
    rw [Event.requests_append, Call.requests_event] at htask
    rcases List.mem_append.mp htask with hold | hnew
    · obtain ⟨j, c', hj₀, hj, hbegins⟩ := hw.begun task hold
      by_cases hij : i = j
      · subst hij
        exact ⟨i, _, hj₀, calls_step_self hi, (Call.next_step w.shared c).begins_eq⟩
      · exact ⟨j, c', hj₀, (calls_step_of_ne hij).trans hj, hbegins⟩
    · cases hstage with
      | request t =>
        obtain rfl := List.mem_singleton.mp hnew
        exact ⟨i, _, hc₀, calls_step_self hi, (Call.next_step w.shared _).begins_eq⟩
      | _ => cases hnew

/-- **Along every run** of requests and notifications. -/
theorem Memoized.run (hw : Memoized w₀ log w) (hunique : w₀.UniqueTasks) (schedule : List Nat) :
    Memoized w₀ (log ++ w.events schedule) (w.run schedule).1 :=
  events_induction (fun _ _ _ _ hw hi => hw.step hunique hi) hw schedule

/-- Requests and notifications respect the references to every context: nothing is forgotten. -/
theorem Memoized.respects (hw : Memoized w₀ log w) (hunique : w₀.UniqueTasks) (p : TaskId)
    (schedule : List Nat) : w.Respects p schedule := by
  induction schedule generalizing w log with
  | nil => trivial
  | cons i schedule ih =>
    cases hi : w.calls[i]? with
    | none =>
      refine ⟨fun c hc => absurd (hi ▸ hc) (Option.not_mem_none c), ?_⟩
      rw [step_of_none hi]
      exact ih hw
    | some c =>
      refine ⟨fun c' hc' => ?_, ih (hw.step hunique hi)⟩
      obtain rfl : c = c' := Option.some.inj (hi.symm.trans hc')
      obtain ⟨c₀, -, hstage⟩ := hw.stages i c hi
      cases hstage with
      | deliver => exact fun e he hp hsettles => (hw.recorded.generation _).symm
      | _ => trivial

/-! ### Memoization -/

/-- One of the tasks with each identity. -/
def distinct (tasks : List Task) : List Task :=
  tasks.pwFilter fun t u => t.id ≠ u.id

theorem nodup_distinct (tasks : List Task) : ((distinct tasks).map Task.id).Nodup :=
  List.pairwise_map.mpr (List.pairwise_pwFilter tasks)

theorem mem_distinct_iff {tasks : List Task}
    (hunique : ∀ t ∈ tasks, ∀ u ∈ tasks, t.id = u.id → t = u) {task : Task} :
    task ∈ distinct tasks ↔ task ∈ tasks := by
  refine ⟨fun h => List.pwFilter_subset tasks h, fun h => ?_⟩
  by_contra hnot
  have hall : ∀ u ∈ distinct tasks, task.id ≠ u.id := by
    intro u hu hid
    exact hnot (hunique task h u (List.pwFilter_subset tasks hu) hid ▸ hu)
  have htrans : ∀ {a b c : Task}, a.id ≠ c.id → a.id ≠ b.id ∨ b.id ≠ c.id := by
    intro a b c hac
    by_cases hab : a.id = b.id
    · exact .inr (hab ▸ hac)
    · exact .inl hab
  exact (List.forall_mem_pwFilter (R := fun t u : Task => t.id ≠ u.id) htrans task tasks).mp hall task h rfl

/-- Is every operation of a run either not begun or answered? -/
def AtRest (w : Workers) : Prop :=
  ∀ c ∈ w.calls, c.begins = true ∨ ∃ a, c = .answered a

/-- **Nothing is lost and nothing is done twice** in a run from `w₀`. -/
structure MemoizesRequests (w₀ : Workers) (schedule : List Nat) : Prop where
  /-- No task is registered twice. -/
  once : ((registrations (w₀.events schedule)).map fun r => r.1.id).Nodup
  /-- What is registered is kept with its sub-tasks, until the count is final. -/
  kept : ∀ r ∈ registrations (w₀.events schedule), ∃ e,
    (w₀.run schedule).1.shared.state.entries.get? r.1.id = some e ∧ e.IsFor r.1 r.2
  /-- Nothing else is kept. -/
  only : ∀ id e, (w₀.run schedule).1.shared.state.entries.get? id = some e →
    ∃ r ∈ registrations (w₀.events schedule), r.1.id = id
  /-- A request answers with the sub-tasks that were registered, or with none if the count is final. -/
  answers : ∀ (i : Nat) (task : Task) (a : Answer), w₀.calls[i]? = some (.request task) →
    (w₀.run schedule).1.calls[i]? = some (.answered a) →
    ∃ children, (task, children) ∈ registrations (w₀.events schedule) ∧
      (a = .children children ∨ a = .children [] ∧ ∃ e,
        (w₀.run schedule).1.shared.state.entries.get? task.id = some e ∧ e.aggregation.isFinal = true)
  /-- An operation that runs often enough does answer. -/
  progress : ∀ (i : Nat) (c : Call), w₀.calls[i]? = some c → Call.sectionLimit ≤ schedule.count i →
    ∃ a, (w₀.run schedule).1.calls[i]? = some (.answered a)
  /-- What a request throws away is at no time waited for, nor answered with. -/
  rejected : ∀ children ∈ rejections (w₀.events schedule), ∀ child ∈ children,
    ∀ early late : List Nat, schedule = early ++ late →
      (∀ id e, (w₀.run early).1.shared.state.entries.get? id = some e →
        child.id ∉ e.aggregation.outstanding) ∧
      ∀ tasks, Call.answered (.children tasks) ∈ (w₀.run early).1.calls → child.id ∉ tasks.map Task.id
  /-- Every request is either among those that have begun, or still to come. -/
  requested : (requests (w₀.events schedule) ++ (w₀.run schedule).1.calls.filterMap Call.request?).Perm
    (w₀.calls.filterMap Call.request?)
  /-- At rest, the requests are counted, and the tasks that were requested, and their factors. -/
  counted : (w₀.run schedule).1.AtRest →
    stats (w₀.run schedule).1.shared.state =
      ⟨(requests (w₀.events schedule)).length, (distinct (requests (w₀.events schedule))).length,
        ((distinct (requests (w₀.events schedule))).map fun task =>
          (factorize task.expression none).factors.length).sum⟩
  /-- At rest, the users of a context are the unfinished tasks of the parent. -/
  users : (w₀.run schedule).1.AtRest → ∀ p,
    (w₀.run schedule).1.shared.state.users p = (w₀.run schedule).1.shared.state.unfinished p ∧
      ((w₀.run schedule).1.shared.state.contexts.get? p = none ↔
        (w₀.run schedule).1.shared.state.unfinished p = 0)

theorem memoized_start {n : Nat} {calls : List Call}
    (hcalls : ∀ c ∈ calls, (∃ task, c = .request task) ∨ ∃ task sub count, c = .notify task sub count) :
    Memoized (start n calls) [] (start n calls) := by
  refine ⟨⟨fun _ => rfl, ?_, List.nodup_nil, ?_, ?_, ?_, ?_⟩, fun i c hi => ⟨c, hi, ?_⟩, ?_⟩
  · intro p slot hslot
    cases hslot
  · exact fun r hr => absurd hr List.not_mem_nil
  · intro id e he
    cases he
  · exact fun r hr => absurd hr List.not_mem_nil
  · exact fun r hr => absurd hr List.not_mem_nil
  · rcases hcalls c (List.mem_of_getElem? hi) with ⟨task, rfl⟩ | ⟨task, sub, count, rfl⟩
    · exact .request task
    · exact .notify task sub count
  · exact fun task htask => absurd htask List.not_mem_nil

theorem fresh_start {n : Nat} {calls : List Call}
    (hcalls : ∀ c ∈ calls, (∃ task, c = .request task) ∨ ∃ task sub count, c = .notify task sub count) :
    (start n calls).Fresh [] := by
  have hnone : issued [] (start n calls) = [] := by
    refine List.flatMap_eq_nil_iff.mpr fun c hc => ?_
    rcases hcalls c hc with ⟨task, rfl⟩ | ⟨task, sub, count, rfl⟩ <;> rfl
  constructor
  · rw [hnone]
    exact List.nodup_nil
  · rw [hnone]
    exact fun id hid => absurd hid List.not_mem_nil

theorem tallied_start {n : Nat} {calls : List Call}
    (hcalls : ∀ c ∈ calls, (∃ task, c = .request task) ∨ ∃ task sub count, c = .notify task sub count) :
    (start n calls).Tallied [] := by
  refine ⟨rfl, ?_, ?_⟩
  · refine (Nat.zero_add _).trans (List.countP_eq_zero.mpr fun c hc => ?_)
    rcases hcalls c hc with ⟨task, rfl⟩ | ⟨task, sub, count, rfl⟩ <;> exact Bool.false_ne_true
  · refine (Nat.zero_add _).trans (List.sum_eq_zero fun k hk => ?_)
    obtain ⟨c, hc, rfl⟩ := List.mem_map.mp hk
    rcases hcalls c hc with ⟨task, rfl⟩ | ⟨task, sub, count, rfl⟩ <;> rfl

/-- What a request has answered with. -/
theorem Memoized.answer (hw : Memoized w₀ log w) {i : Nat} {task : Task} {a : Answer}
    (hi₀ : w₀.calls[i]? = some (.request task)) (hi : w.calls[i]? = some (.answered a)) :
    ∃ children, (task, children) ∈ registrations log ∧ (a = .children children ∨ a = .children [] ∧
      ∃ e, w.shared.state.entries.get? task.id = some e ∧ e.aggregation.isFinal = true) := by
  obtain ⟨c₀, hc₀, hstage⟩ := hw.stages i _ hi
  obtain rfl := Option.some.inj (hi₀.symm.trans hc₀)
  cases hstage with
  | children hr => exact ⟨_, hr, .inl rfl⟩
  | nothingLeft hr he hfinal => exact ⟨_, hr, .inr ⟨rfl, _, he, hfinal⟩⟩

/-- Sub-tasks that any operation has answered with were registered. -/
theorem Memoized.mem_registrations_of_answered (hw : Memoized w₀ log w) {tasks : List Task} {child : Task}
    (hanswer : Call.answered (.children tasks) ∈ w.calls) (hchild : child ∈ tasks) :
    ∃ r ∈ registrations log, child ∈ r.2 := by
  obtain ⟨i, hi⟩ := List.mem_iff_getElem?.mp hanswer
  obtain ⟨c₀, -, hstage⟩ := hw.stages i _ hi
  cases hstage with
  | children hr => exact ⟨_, hr, hchild⟩
  | nothingLeft _ _ _ => exact absurd hchild List.not_mem_nil

/-- A sub-task that is not registered is neither waited for nor answered with. -/
theorem Memoized.unheard (hw : Memoized w₀ log w) {child : Task}
    (hnot : ∀ r ∈ registrations log, child.id ∉ r.2.map Task.id) :
    (∀ id e, w.shared.state.entries.get? id = some e → child.id ∉ e.aggregation.outstanding) ∧
      ∀ tasks, Call.answered (.children tasks) ∈ w.calls → child.id ∉ tasks.map Task.id := by
  constructor
  · intro id e he hwaited
    obtain ⟨r, hr, hmem⟩ := hw.recorded.mem_registrations_of_outstanding he hwaited
    exact hnot r hr hmem
  · intro tasks hanswer hmem
    obtain ⟨other, hother, hid⟩ := List.mem_map.mp hmem
    obtain ⟨r, hr, hmem⟩ := hw.mem_registrations_of_answered hanswer hother
    exact hnot r hr (hid ▸ List.mem_map_of_mem hmem)

/-- No sub-task is both registered and thrown away. -/
theorem Fresh.not_registered_of_rejected (hw : w.Fresh log) {children : List Task} {child : Task}
    (hrejected : children ∈ rejections log) (hchild : child ∈ children) :
    ∀ r ∈ registrations log, child.id ∉ r.2.map Task.id := by
  intro r hr hmem
  have hdisjoint := (List.nodup_append'.mp (List.nodup_append'.mp hw.nodup).1).2.2
  exact hdisjoint (List.mem_flatMap.mpr ⟨r, hr, hmem⟩)
    (List.mem_flatMap.mpr ⟨children, hrejected, List.mem_map_of_mem hchild⟩)

/-- At rest, exactly the tasks that were requested are registered. -/
theorem Memoized.registered_perm (hw : Memoized w₀ log w) (hunique : w₀.UniqueTasks) (hrest : w.AtRest) :
    ((registrations log).map Prod.fst).Perm (distinct (requests log)) := by
  have hrequests {t : Task} (ht : t ∈ requests log) : Call.request t ∈ w₀.calls := by
    obtain ⟨i, -, hi, -⟩ := hw.begun t ht
    exact List.mem_of_getElem? hi
  have hids : ((registrations log).map Prod.fst).map Task.id = (registrations log).map fun r => r.1.id :=
    List.map_map
  have hnodup : ((registrations log).map Prod.fst).Nodup := by
    refine .of_map Task.id ?_
    rw [hids]
    exact hw.recorded.once
  refine (List.perm_ext_iff_of_nodup hnodup (nodup_distinct _).of_map).mpr fun task => ?_
  rw [mem_distinct_iff fun t ht u hu => hunique t u (hrequests ht) (hrequests hu)]
  constructor
  · intro hmem
    obtain ⟨r, hr, rfl⟩ := List.mem_map.mp hmem
    exact hw.recorded.requested r hr
  · intro hmem
    -- the request has begun, so it has been answered
    obtain ⟨i, c, hi₀, hi, hbegins⟩ := hw.begun task hmem
    rcases hrest c (List.mem_of_getElem? hi) with hbegins' | ⟨a, rfl⟩
    · rw [hbegins] at hbegins'
      cases hbegins'
    · obtain ⟨children, hr, -⟩ := hw.answer hi₀ hi
      exact List.mem_map_of_mem hr

/-- At rest, the counters say what was requested. -/
theorem Memoized.stats_eq (hw : Memoized w₀ log w) (hunique : w₀.UniqueTasks) (htally : w.Tallied log)
    (hrest : w.AtRest) :
    stats w.shared.state = ⟨(requests log).length, (distinct (requests log)).length,
      ((distinct (requests log)).map fun task =>
        (factorize task.expression none).factors.length).sum⟩ := by
  obtain ⟨hinvocations, htotal, hfactored⟩ := htally
  have hperm := hw.registered_perm hunique hrest
  have huncounted : ∀ c ∈ w.calls, c.uncounted = false ∧ c.uncountedFactors = 0 := by
    intro c hc
    rcases hrest c hc with hbegins | ⟨a, rfl⟩
    · cases c with
      | request _ | notify _ _ _ | forget _ => exact ⟨rfl, rfl⟩
      | _ => cases hbegins
    · exact ⟨rfl, rfl⟩
  have hcount : w.calls.countP Call.uncounted = 0 := by
    refine List.countP_eq_zero.mpr fun c hc => ?_
    rw [(huncounted c hc).1]
    exact Bool.false_ne_true
  have hsum : (w.calls.map Call.uncountedFactors).sum = 0 := by
    refine List.sum_eq_zero fun k hk => ?_
    obtain ⟨c, hc, rfl⟩ := List.mem_map.mp hk
    exact (huncounted c hc).2
  have hfactors : (registrations log).map (fun r => r.2.length) =
      ((registrations log).map Prod.fst).map fun task =>
        (factorize task.expression none).factors.length := by
    rw [List.map_map]
    refine List.map_congr_left fun r hr => ?_
    rw [Function.comp_apply, ← hw.recorded.factors r hr, List.length_map]
  rw [hcount, Nat.add_zero] at htotal
  rw [hsum, Nat.add_zero, hfactors, (hperm.map _).sum_eq] at hfactored
  rw [stats, hinvocations, htotal, hfactored, ← hperm.length_eq, List.length_map]

/-- At rest, only entries hold references. -/
theorem AtRest.references_eq (hrest : w.AtRest) (p : TaskId) :
    w.references p = w.shared.state.unfinished p := by
  have hnone : w.calls.countP (Call.holds w.shared p) = 0 := by
    refine List.countP_eq_zero.mpr fun c hc => ?_
    rcases hrest c hc with hbegins | ⟨a, rfl⟩
    · cases c with
      | request _ | notify _ _ _ | forget _ => simp [Call.holds]
      | _ => cases hbegins
    · simp [Call.holds]
  rw [references, hnone, Nat.add_zero]

/-- **Requests are answered once and for all.**  Requests for any tasks and notifications run at the same
time, on a new aggregator, in any order of their sections.  Each requested task is registered once, all
requests for it answer with the sub-tasks that it was registered with, as long as there is anything to
do, and what others have issued for it is never heard of again.  When no operation is under way, the
counters and the users of all contexts are what they would be if each task had been requested alone. -/
theorem requests_are_memoized {n : Nat} {calls : List Call}
    (hcalls : ∀ c ∈ calls, (∃ task, c = .request task) ∨ ∃ task sub count, c = .notify task sub count)
    (hunique : (start n calls).UniqueTasks) (schedule : List Nat) :
    (start n calls).MemoizesRequests schedule := by
  have hbegins : ∀ c ∈ calls, c.begins = true := by
    intro c hc
    rcases hcalls c hc with ⟨task, rfl⟩ | ⟨task, sub, count, rfl⟩ <;> rfl
  have hstart := memoized_start (n := n) hcalls
  have hrun (schedule : List Nat) :
      Memoized (start n calls) ((start n calls).events schedule) ((start n calls).run schedule).1 :=
    hstart.run hunique schedule
  have hfresh : ((start n calls).run schedule).1.Fresh ((start n calls).events schedule) :=
    (fresh_start hcalls).run schedule
  have htally : ((start n calls).run schedule).1.Tallied ((start n calls).events schedule) :=
    (tallied_start hcalls).run schedule
  refine ⟨(hrun schedule).recorded.once, (hrun schedule).recorded.kept, (hrun schedule).recorded.only,
    fun i task a hi₀ hi => (hrun schedule).answer hi₀ hi, ?_, ?_, requests_perm _ schedule,
    fun hrest => (hrun schedule).stats_eq hunique htally hrest, ?_⟩
  · intro i c hi hcount
    refine answered_of_run hi (Nat.le_trans ?_ hcount)
    rcases hcalls c (List.mem_of_getElem? hi) with ⟨task, rfl⟩ | ⟨task, sub, count, rfl⟩
    · exact (by decide : 7 ≤ 8)
    · exact (by decide : 3 ≤ 8)
  · intro children hrejected child hchild early late hsplit
    have hnot := hfresh.not_registered_of_rejected hrejected hchild
    -- what was registered early on was registered in the whole run
    have hearly {r : Task × List Task} (hr : r ∈ registrations ((start n calls).events early)) :
        r ∈ registrations ((start n calls).events schedule) := by
      rw [hsplit, events_append, Event.registrations_append]
      exact List.mem_append_left _ hr
    exact (hrun early).unheard fun r hr => hnot r (hearly hr)
  · intro hrest p
    have haccounts : ((start n calls).run schedule).1.Accounts p :=
      (accounts_start hbegins).run (hstart.respects hunique p schedule)
    have husers := haccounts.users_eq
    rw [hrest.references_eq p] at husers
    refine ⟨husers, ?_⟩
    rw [haccounts.noIdle.get?_eq_none_iff, husers]

/-! ### An instance -/

/-- Two requests for one task, and a notification that one of its sub-tasks has no models. -/
def rivals : List Call :=
  [.request elderTask, .request elderTask, .notify ⟨2⟩ ⟨4⟩ 0]

/-- Both requests issue a sub-task; the first registers its own, which has its count before either of them
has answered. -/
def rivalSchedule : List Nat :=
  [0, 0, 1, 1, 0, 0, 1, 1, 0, 1, 2, 2, 2, 0, 1, 1]

/-- The first request answers with its sub-task, and the second with nothing. -/
theorem rivals_are_memoized :
    (∀ c ∈ rivals, (∃ task, c = .request task) ∨ ∃ task sub count, c = .notify task sub count) ∧
      (start 4 rivals).UniqueTasks ∧ (start 4 rivals).MemoizesRequests rivalSchedule ∧
      ((start 4 rivals).run rivalSchedule).1.calls =
        [.answered (.children [.mk ⟨4⟩ "host" none (.var ⟨"w", .int, by decide⟩)]),
          .answered (.children []), .answered (.completion (.done 0))] := by
  have hcalls : ∀ c ∈ rivals,
      (∃ task, c = .request task) ∨ ∃ task sub count, c = .notify task sub count := by
    intro c hc
    simp only [rivals, List.mem_cons, List.not_mem_nil, or_false] at hc
    rcases hc with rfl | rfl | rfl
    · exact .inl ⟨_, rfl⟩
    · exact .inl ⟨_, rfl⟩
    · exact .inr ⟨_, _, _, rfl⟩
  have hunique : (start 4 rivals).UniqueTasks := by
    intro t u ht hu _
    simp [start, rivals] at ht hu
    rw [ht, hu]
  exact ⟨hcalls, hunique, requests_are_memoized hcalls hunique rivalSchedule, by cbv⟩

end Workers

end SmtCount.Aggregator
