import Mathlib
import SmtCount.Proofs.Aggregator.Histories
import SmtCount.Proofs.Aggregator.References

/-!
# The use of contexts

When operations run one after another, nobody holds a reference to the context of a parent between two of
them but the tasks that wait for counts.  So a context has no more users than there are unfinished tasks of
its parent, and goes with the last of them at the latest.  It may go earlier, by being forgotten with its
parent; the tasks that were split with it then give their references back to a context that was built later,
or to none.

## Main definitions

* `Aggregation.Tidy a` — the aggregation has what it waits for, or keeps nothing but its count.
* `Books p users unfinished s` — the numbers of users and of unfinished tasks of a parent.
* `Shift forgotten users unfinished` — what one operation may make of these two numbers.

## Main results

* `Ask.perform_shifts`, `Ask.perform_tidy` — **one operation**: users and unfinished tasks of a parent become
  more or less together, unless the parent is forgotten, and aggregations stay tidy.
* `Happens.accounted` — **every history** keeps the users below the unfinished tasks.
* `Happens.contexts_do_not_leak` — no context outlives the last unfinished task of its parent.
-/

namespace SmtCount

/-! ### What an aggregation keeps -/

namespace Aggregation

/-- Has an aggregation let go of everything but its count when that is final, and something to wait for as
long as it is not? -/
structure Tidy (a : Aggregation) : Prop where
  released : a.isFinal = true → a.children = [] ∧ a.outstanding = []
  waits : a.isFinal = false → a.outstanding ≠ []

theorem tidy_settled {phase : Phase} (h : phase.isFinal = true) (product : Nat) :
    (settled phase product).Tidy := by
  refine ⟨fun _ => ⟨rfl, rfl⟩, fun hwaits => ?_⟩
  rw [isFinal_settled h] at hwaits
  cases hwaits

theorem tidy_start (children : List Task) : (start children).Tidy := by
  unfold start
  split
  · exact tidy_settled rfl 1
  · rename_i hne
    refine ⟨fun hfinal => absurd hfinal Bool.false_ne_true, fun _ => ?_⟩
    simpa using hne

/-- A notification that leaves something to wait for changes nothing else that matters. -/
theorem Tidy.receive {a : Aggregation} (h : a.Tidy) (sub : TaskId) (count : Nat) :
    (a.receive sub count).2.Tidy := by
  unfold Aggregation.receive
  split
  · exact h
  split
  · exact tidy_settled rfl 0
  split
  · exact h
  dsimp only
  split
  · exact tidy_settled rfl _
  · rename_i hmore
    refine ⟨fun hfinal => absurd hfinal Bool.false_ne_true, fun _ => ?_⟩
    simpa using hmore

end Aggregation

namespace Aggregator

/-! ### The books of a parent -/

/-- Has the context of a parent so many users, and the parent so many unfinished tasks?  Contexts without
users are not kept, and a task has one entry. -/
structure Books (p : TaskId) (users unfinished : Nat) (s : Aggregator) : Prop where
  users_eq : s.users p = users
  unfinished_eq : s.unfinished p = unfinished
  noIdle : NoIdle s
  nodup_keys : s.entries.keys.Nodup

namespace Books

variable {p : TaskId} {u n : Nat} {s t : Aggregator}

theorem of_eq (hs : Books p u n s) (hcontexts : t.contexts = s.contexts) (hentries : t.entries = s.entries) :
    Books p u n t where
  users_eq := (users_of_contexts_eq hcontexts).trans hs.users_eq
  unfinished_eq := (unfinished_of_entries_eq hentries).trans hs.unfinished_eq
  noIdle := hs.noIdle.of_contexts_eq hcontexts
  nodup_keys := hentries ▸ hs.nodup_keys

/-- The operation that takes the context of a parent is one more user. -/
theorem acquire (hs : Books p u n s) (task : Task) :
    Books p (u + (decide (task.parent.map Task.id = some p)).toNat) n (acquireParentContext task s).2.1 where
  users_eq := by rw [users_acquireParentContext, hs.users_eq]
  unfinished_eq :=
    (unfinished_of_entries_eq (keepsEntries_acquireParentContext task s)).trans hs.unfinished_eq
  noIdle := hs.noIdle.acquireParentContext task
  nodup_keys := (keepsEntries_acquireParentContext task s).symm ▸ hs.nodup_keys

/-- A reference that is given back is one user less, if there is a user. -/
theorem release (hs : Books p u n s) (parent : Option TaskId) :
    Books p (u - (decide (parent = some p)).toNat) n (releaseParentContext parent s).2.1 where
  users_eq := by rw [users_releaseParentContext, hs.users_eq]
  unfinished_eq :=
    (unfinished_of_entries_eq (keepsEntries_releaseParentContext parent s)).trans hs.unfinished_eq
  noIdle := hs.noIdle.releaseParentContext parent
  nodup_keys := (keepsEntries_releaseParentContext parent s).symm ▸ hs.nodup_keys

theorem register (hs : Books p u n s) {task : TaskId} (hnew : s.entries.get? task = none) (e : Entry) :
    Books p u (n + (e.uses p).toNat) { s with entries := s.entries.insert task e } where
  users_eq := hs.users_eq
  unfinished_eq := by rw [unfinished_insert_new hnew, hs.unfinished_eq]
  noIdle := hs.noIdle
  nodup_keys := Table.nodup_keys_insert hs.nodup_keys task e

/-- An entry that stops to wait is one unfinished task less. -/
theorem receive (hs : Books p u n s) {task : TaskId} {e : Entry} (he : s.entries.get? task = some e)
    (sub : TaskId) (count : Nat) :
    Books p u (n - ((e.aggregation.receive sub count).1.settles && decide (e.parent = some p)).toNat)
      { s with entries :=
        s.entries.insert task { e with aggregation := (e.aggregation.receive sub count).2 } } where
  users_eq := hs.users_eq
  unfinished_eq := by
    have hafter := unfinished_insert_old (p := p) he
      { e with aggregation := (e.aggregation.receive sub count).2 }
    have huses := uses_receive_add p e sub count
    have hbefore := hs.unfinished_eq
    omega
  noIdle := hs.noIdle
  nodup_keys := Table.nodup_keys_insert hs.nodup_keys task _

theorem detach (hs : Books p u n s) {task : TaskId} {e : Entry} (he : s.entries.get? task = some e) :
    Books p u (n - (e.uses p).toNat) { s with entries := s.entries.erase task } where
  users_eq := hs.users_eq
  unfinished_eq := by
    have hafter := unfinished_erase (p := p) hs.nodup_keys he
    have hbefore := hs.unfinished_eq
    omega
  noIdle := hs.noIdle
  nodup_keys := Table.nodup_keys_erase hs.nodup_keys task

theorem drop (hs : Books p u n s) (task : TaskId) :
    Books p (if task = p then 0 else u) n { s with contexts := s.contexts.erase task } where
  users_eq := by rw [users_erase, hs.users_eq]
  unfinished_eq := hs.unfinished_eq
  noIdle := hs.noIdle.erase task
  nodup_keys := hs.nodup_keys

end Books

/-! ### One operation -/

/-- What one operation may make of the numbers of users and of unfinished tasks of a parent. -/
inductive Shift (forgotten : Prop) (users unfinished : Nat) : Nat → Nat → Prop
  /-- Tasks were split that use the context. -/
  | more (k : Nat) : Shift forgotten users unfinished (users + k) (unfinished + k)
  /-- Tasks have finished and given the context back, as far as there were users. -/
  | less (k : Nat) : Shift forgotten users unfinished (users - k) (unfinished - k)
  /-- The context was dropped, since the parent was forgotten. -/
  | dropped (k : Nat) : forgotten → Shift forgotten users unfinished 0 (unfinished - k)

section Operations

variable {p : TaskId} {u n : Nat} {s : Aggregator}

/-- The first request for a task makes one more user, and one more unfinished task, or neither. -/
theorem split_books (hs : Books p u n s) {task : Task} (hnew : s.entries.get? task.id = none) :
    (split task).Ensures s fun _ t => ∃ k, Books p (u + k) (n + k) t := by
  refine .bind (P := fun _ t => Books p (u + (decide (task.parent.map Task.id = some p)).toNat) n t ∧
      t.entries.get? task.id = none) ⟨hs.acquire task, ?_⟩ ?_
  · rwa [keepsEntries_acquireParentContext task s]
  rintro context s₁ ⟨h₁, hnew₁⟩
  refine .bind (P := fun _ t => s₁ = t) rfl ?_
  rintro _ _ rfl
  refine .bind (P := fun _ t => Books p (u + (decide (task.parent.map Task.id = some p)).toNat) n t ∧
      t.entries.get? task.id = none) ?_ ?_
  · unfold Action.Ensures
    rw [(issueChildren_eq task _ s₁).2]
    exact ⟨h₁.of_eq rfl rfl, hnew₁⟩
  rintro children s₂ ⟨h₂, hnew₂⟩
  let e : Entry := ⟨task.parent.map Task.id, Aggregation.start children⟩
  refine .bind (P := fun found t => found = none ∧
    Books p (u + (decide (task.parent.map Task.id = some p)).toNat) (n + (e.uses p).toNat) t) ?_ ?_
  · unfold Action.Ensures
    rw [register_of_no_entry hnew₂]
    exact ⟨rfl, h₂.register hnew₂ e⟩
  rintro _ s₃ ⟨rfl, h₃⟩
  refine .ite (fun hfinal => ?_) fun hwaits => ?_
  · -- an entry that never waits does not use the context, which is given back at once
    have huses : (e.uses p).toNat = 0 := by simp [e, Entry.uses, hfinal]
    rw [huses] at h₃
    refine .bind (P := fun _ t => Books p u n t) ?_ ?_
    · have hback := h₃.release (task.parent.map Task.id)
      rwa [Nat.add_sub_cancel] at hback
    · intro _ t ht
      exact ⟨0, ht.of_eq rfl rfl⟩
  · have huses : e.uses p = decide (task.parent.map Task.id = some p) := by simp [e, Entry.uses, hwaits]
    rw [huses] at h₃
    exact ⟨_, h₃.of_eq rfl rfl⟩

theorem request_books (hs : Books p u n s) (task : Task) :
    (request task).Ensures s fun _ t => ∃ k, Books p (u + k) (n + k) t := by
  refine .bind (P := fun _ t => Books p u n t) (hs.of_eq rfl rfl) ?_
  intro _ s₁ h₁
  refine .bind (P := fun found t => found = s₁.entries.get? task.id ∧ s₁ = t) ⟨rfl, rfl⟩ ?_
  rintro found _ ⟨hfound, rfl⟩
  cases found with
  | some e => exact ⟨0, h₁⟩
  | none => exact split_books h₁ hfound.symm

/-- A notification that makes the count of a task final gives the reference of the task back. -/
theorem childDone_books (hs : Books p u n s) (task sub : TaskId) (count : Nat) :
    (childDone task sub count).Ensures s fun _ t => ∃ k, Books p (u - k) (n - k) t := by
  refine .bind (P := fun found t => found = s.entries.get? task ∧ s = t) ⟨rfl, rfl⟩ ?_
  rintro found _ ⟨hfound, rfl⟩
  cases found with
  | none => exact ⟨0, hs⟩
  | some e =>
    refine .bind (P := fun _ t => Books p u
      (n - ((e.aggregation.receive sub count).1.settles && decide (e.parent = some p)).toNat) t)
      (hs.receive hfound.symm sub count) ?_
    intro _ s₁ h₁
    refine .bind (P := fun _ t => s₁ = t) rfl ?_
    rintro _ _ rfl
    refine .ite (c := (e.aggregation.receive sub count).1.settles = true) (fun hsettles => ?_) fun hwaits => ?_
    · rw [hsettles, Bool.true_and] at h₁
      exact ⟨_, h₁.release e.parent⟩
    · rw [Bool.eq_false_of_not_eq_true hwaits] at h₁
      exact ⟨0, h₁⟩

/-- Forgetting a task that waits gives its reference back; its context as a parent goes in any case. -/
theorem forget_books (hs : Books p u n s) (task : TaskId) :
    (forget task).Ensures s fun _ t => ∃ k, Books p (if task = p then 0 else u - k) (n - k) t := by
  refine .bind (P := fun found t => found = s.entries.get? task ∧ s = t) ⟨rfl, rfl⟩ ?_
  rintro found _ ⟨hfound, rfl⟩
  cases found with
  | none => exact ⟨0, hs.drop task⟩
  | some e =>
    refine .bind (P := fun _ t => Books p u (n - (e.uses p).toNat) t) (hs.detach hfound.symm) ?_
    intro _ s₁ h₁
    refine .ite (fun hwaits => ?_) fun hfinal => ?_
    · have huses : e.uses p = decide (e.parent = some p) := by
        rw [Entry.uses, hwaits, Bool.and_true]
      refine .bind (P := fun _ t => Books p (u - (e.uses p).toNat) (n - (e.uses p).toNat) t) ?_ ?_
      · have hback := h₁.release e.parent
        rwa [← huses] at hback
      · intro _ s₂ h₂
        exact ⟨_, h₂.drop task⟩
    · have huses : (e.uses p).toNat = 0 := by
        simp only [Entry.uses, Bool.eq_false_of_not_eq_true hfinal, Bool.and_false, Bool.toNat_false]
      rw [huses] at h₁
      exact ⟨0, h₁.drop task⟩

/-- **One operation** makes users and unfinished tasks of a parent more or less together, unless it forgets the
parent. -/
theorem Ask.perform_shifts (hs : Books p u n s) (task : Task) (ask : Ask) :
    (ask.perform task).Ensures s fun _ t =>
      ∃ u' n', Books p u' n' t ∧ Shift (ask = .forget ∧ task.id = p) u n u' n' := by
  cases ask with
  | request => exact .bind (request_books hs task) fun _ t ⟨k, ht⟩ => ⟨_, _, ht, .more k⟩
  | childDone sub count =>
    exact .bind (childDone_books hs task.id sub count) fun _ t ⟨k, ht⟩ => ⟨_, _, ht, .less k⟩
  | allChildrenDone last =>
    refine .bind (allChildrenDone_gives s task.id last) ?_
    rintro _ _ ⟨-, rfl⟩
    exact ⟨_, _, hs, .more 0⟩
  | phase => exact ⟨_, _, hs, .more 0⟩
  | forget =>
    refine .bind (forget_books hs task.id) ?_
    rintro _ t ⟨k, ht⟩
    refine ⟨_, _, ht, ?_⟩
    split
    · rename_i hp
      exact .dropped k ⟨rfl, hp⟩
    · exact .less k

/-- **One operation** keeps aggregations tidy. -/
theorem Ask.perform_tidy (hsound : SoundContexts s) (hs : ∀ id a, s.kept id = some a → a.Tidy) (task : Task)
    (ask : Ask) : (ask.perform task).Ensures s fun _ t => ∀ id a, t.kept id = some a → a.Tidy := by
  cases hanswer : ask.answer? task.id (s.kept task.id) with
  | none =>
    obtain ⟨rfl, hnone⟩ := Ask.eq_request_of_answer? hanswer
    refine (Ask.perform_first hsound hnone).mono ?_
    rintro _ t ⟨children, -, hsplits⟩ id a ha
    rw [kept_insert hsplits.entries] at ha
    split at ha
    · exact Option.some.inj ha ▸ Aggregation.tidy_start children
    · exact hs id a ha
  | some answer =>
    obtain ⟨reply, next⟩ := answer
    refine (Ask.perform_answer hanswer).mono ?_
    rintro _ t ⟨-, -, hkept, hothers⟩ id a ha
    by_cases hid : id = task.id
    · subst hid
      rw [hkept] at ha
      subst ha
      generalize hbefore : s.kept task.id = before at hanswer
      cases Ask.answers_of_answer? hanswer with
      | received a sub count => exact (hs _ a hbefore).receive sub count
      | children a | concluded a | told _ _ | phase _ => exact hs _ _ hbefore
    · exact hs id a (hothers id hid ▸ ha)

end Operations

/-! ### Every history -/

/-- What the contexts and the aggregations come to, after some history. -/
structure Accounted (h : History) : Prop where
  noIdle : NoIdle h.state
  nodup_keys : h.state.entries.keys.Nodup
  users_le : ∀ p, h.state.users p ≤ h.state.unfinished p
  users_eq : ∀ p, (∀ x ∈ h.exchanges, x.ask = .forget → x.task.id ≠ p) →
    h.state.users p = h.state.unfinished p
  tidy : ∀ id a, h.state.kept id = some a → a.Tidy

theorem Accounted.books {h : History} (hh : Accounted h) (p : TaskId) :
    Books p (h.state.users p) (h.state.unfinished p) h.state :=
  ⟨rfl, rfl, hh.noIdle, hh.nodup_keys⟩

/-- One more operation is accounted for. -/
theorem Accounted.ask {h : History} (hh : Accounted h) (hsound : SoundContexts h.state) (task : Task)
    (ask : Ask) : Accounted (h.ask task ask) := by
  have hshifts (p : TaskId) := Ask.perform_shifts (hh.books p) task ask
  refine ⟨?_, ?_, fun p => ?_, fun p hp => ?_, Ask.perform_tidy hsound hh.tidy task ask⟩
  · obtain ⟨_, _, hbooks, -⟩ := hshifts task.id
    exact hbooks.noIdle
  · obtain ⟨_, _, hbooks, -⟩ := hshifts task.id
    exact hbooks.nodup_keys
  · obtain ⟨u, n, hbooks, hshift⟩ := hshifts p
    have hle := hh.users_le p
    show (ask.perform task h.state).2.1.users p ≤ (ask.perform task h.state).2.1.unfinished p
    rw [hbooks.users_eq, hbooks.unfinished_eq]
    cases hshift with
    | more k => exact Nat.add_le_add_right hle k
    | less k => exact Nat.sub_le_sub_right hle k
    | dropped k _ => exact Nat.zero_le _
  · obtain ⟨u, n, hbooks, hshift⟩ := hshifts p
    have hbefore := hh.users_eq p fun x hx => hp x (List.mem_append_left _ hx)
    show (ask.perform task h.state).2.1.users p = (ask.perform task h.state).2.1.unfinished p
    rw [hbooks.users_eq, hbooks.unfinished_eq]
    cases hshift with
    | more k => rw [hbefore]
    | less k => rw [hbefore]
    | dropped k hforgets =>
      obtain ⟨hforget, hid⟩ := hforgets
      exact absurd hid (hp _ (List.mem_append_right _ (List.mem_singleton_self _)) hforget)

/-- **Every history** is accounted for. -/
theorem Happens.accounted {h : History} (hh : Happens h) : Accounted h := by
  induction hh with
  | start n =>
    refine ⟨fun p slot hslot => ?_, List.nodup_nil, fun p => Nat.le_refl _, fun p _ => rfl,
      fun id a ha => ?_⟩
    · cases hslot
    · cases ha
  | newTask source expression _ _ ih => exact ⟨ih.noIdle, ih.nodup_keys, ih.users_le, ih.users_eq, ih.tidy⟩
  | ask ask hbefore _ ih => exact ih.ask hbefore.sane.sound _ ask

/-- **Contexts do not leak.**  In every history, a context that is kept has a user, and no more users than its
parent has unfinished tasks.  As long as the parent was not forgotten, the users are the unfinished tasks, and
the context is kept exactly if there are any.  A task has one entry, which keeps no sub-task once its count is
final, and has a sub-task to wait for until then. -/
theorem Happens.contexts_do_not_leak {h : History} (hh : Happens h) :
    (∀ p slot, h.state.contexts.get? p = some slot →
      1 ≤ slot.users ∧ slot.users ≤ h.state.unfinished p) ∧
    (∀ p, (∀ x ∈ h.exchanges, x.ask = .forget → x.task.id ≠ p) →
      (∀ slot, h.state.contexts.get? p = some slot → slot.users = h.state.unfinished p) ∧
      (h.state.contexts.contains p = true ↔ 0 < h.state.unfinished p)) ∧
    h.state.entries.keys.Nodup ∧
    ∀ task e, h.state.entries.get? task = some e →
      (e.aggregation.isFinal = true → e.aggregation.children = [] ∧ e.aggregation.outstanding = []) ∧
      (e.aggregation.isFinal = false → e.aggregation.outstanding ≠ []) := by
  have hacc := hh.accounted
  have husers {p : TaskId} {slot : ContextSlot} (hslot : h.state.contexts.get? p = some slot) :
      h.state.users p = slot.users := by
    rw [users, hslot]
    rfl
  refine ⟨fun p slot hslot => ⟨hacc.noIdle p slot hslot, husers hslot ▸ hacc.users_le p⟩, fun p hp => ?_,
    hacc.nodup_keys, fun task e he => ?_⟩
  · have heq := hacc.users_eq p hp
    refine ⟨fun slot hslot => (husers hslot).symm.trans heq, ?_⟩
    rw [← heq, Nat.pos_iff_ne_zero, ne_eq, ← hacc.noIdle.get?_eq_none_iff, Table.contains,
      Option.isSome_iff_ne_none]
  · have htidy := hacc.tidy task e.aggregation (by rw [kept, he]; rfl)
    exact ⟨htidy.released, htidy.waits⟩

/-- A task below a task that has a parent itself. -/
def belowElderTask : Task :=
  .mk ⟨4⟩ "host" (some Workers.elderTask) (.var ⟨"u", .int, by decide⟩)

/-- The parent of two tasks is forgotten between the requests for them; a task below one of them is requested
as well. -/
def renewedHistory : History :=
  ((((History.start 1).newTask "host" none Workers.familyParent.expression).newTask "host"
    (some Workers.familyParent) Workers.elderTask.expression).newTask "host"
    (some Workers.familyParent) Workers.youngerTask.expression).newTask "host"
    (some Workers.elderTask) belowElderTask.expression |>.asks
    [(Workers.elderTask, .request), (Workers.familyParent, .forget), (Workers.youngerTask, .request),
      (belowElderTask, .request)]

theorem happens_renewedHistory : Happens renewedHistory := by
  refine Happens.asks (.newTask "host" _ (.newTask "host" _ (.newTask "host" _ (.newTask "host" _ (.start 1)
    fun p hp => absurd hp (Option.not_mem_none p)) ?_) ?_) ?_) ?_
  · intro p hp
    obtain rfl := Option.some.inj hp
    exact .head _
  · intro p hp
    obtain rfl := Option.some.inj hp
    exact .head _
  · intro p hp
    obtain rfl := Option.some.inj hp
    exact .tail _ (.head _)
  · simp only [List.forall_mem_cons, List.not_mem_nil, false_implies, implies_true, and_true]
    exact ⟨.tail _ (.head _), .head _, .tail _ (.tail _ (.head _)), .tail _ (.tail _ (.tail _ (.head _)))⟩

/-- The context that was built after the parent was forgotten has one user, and the parent two unfinished
tasks; the context of the task that was not forgotten has its one. -/
theorem renewed_contexts_do_not_leak :
    Happens renewedHistory ∧ (renewedHistory.state.unfinished ⟨1⟩ = 2 ∧
      ∃ slot, renewedHistory.state.contexts.get? ⟨1⟩ = some slot ∧ slot.users = 1 ∧
        1 ≤ slot.users ∧ slot.users ≤ renewedHistory.state.unfinished ⟨1⟩) ∧
      renewedHistory.state.unfinished ⟨2⟩ = 1 ∧ renewedHistory.state.contexts.contains ⟨2⟩ = true := by
  have hleak := happens_renewedHistory.contexts_do_not_leak
  have husers : (renewedHistory.state.contexts.get? ⟨1⟩).map ContextSlot.users = some 1 := by cbv
  obtain ⟨slot, hslot, hone⟩ := Option.map_eq_some_iff.mp husers
  have hkept : ∀ x ∈ renewedHistory.exchanges, x.ask = .forget → x.task.id ≠ ⟨2⟩ := by
    have hforgotten : renewedHistory.exchanges.map (fun x => (x.ask, x.task.id)) =
      [(.request, ⟨2⟩), (.forget, ⟨1⟩), (.request, ⟨3⟩), (.request, ⟨4⟩)] := by cbv
    intro x hx hask hid
    have hmem : (Ask.forget, TaskId.mk 2) ∈ renewedHistory.exchanges.map (fun x => (x.ask, x.task.id)) :=
      List.mem_map.mpr ⟨x, hx, by rw [hask, hid]⟩
    rw [hforgotten] at hmem
    simp at hmem
  have hone' : renewedHistory.state.unfinished ⟨2⟩ = 1 := by cbv
  refine ⟨happens_renewedHistory, ⟨by cbv, slot, hslot, hone, hleak.1 ⟨1⟩ slot hslot⟩, hone', ?_⟩
  exact (hleak.2.1 ⟨2⟩ hkept).2.mpr (hone'.symm ▸ Nat.one_pos)

end Aggregator

end SmtCount
