import Mathlib
import SmtCount.Proofs.Aggregator.Deliveries
import SmtCount.Proofs.Tables

/-!
# References to the contexts of parents

The context of a parent is shared by the tasks that are split with it, and counts its users.  An
operation takes a reference before it splits a task; from there on the reference is held by the
operation, by the entry that it keeps, as long as that waits for counts, or by the operation that makes
the count final or forgets the task.  Whoever holds it last gives it back.

The number of users is the number of references that are held, in every interleaving that respects
them.  Two things do not: forgetting a parent drops its context together with the references to it,
so that they are given back to a context that is built later; and an operation that has looked up an
entry may make its count final after the task was forgotten, so that two operations give back one
reference.  Either way a context may go while a task waits that uses it.

## Main definitions

* `users`, `unfinished` — the users of a context, and the unfinished tasks of a parent.
* `Workers.references p w` — how many references to the context of `p` are held.
* `Call.Balanced s p others c` — the users of the context of `p` are the references that are held, by this
  operation, by `others` and by entries.
* `Workers.Respects p w schedule` — neither of the two things happens to the references to `p`.
* `Workers.KeepsUsedContexts w` — a context is kept while an unfinished task uses it, however `w` runs, if
  nobody has asked to forget the task or its parent since the task was requested.

## Main results

* `Call.balanced_step` — **one section** keeps the balance of its operation, with a lemma for each section that
  moves a reference.
* `Workers.Accounts.step`, `Workers.Accounts.run` — **users are references**, after one section and after a
  run.
* `Workers.context_kept` — the context of an unfinished task is kept by a run that respects it.
* `Workers.not_keepsUsedContexts` — it is not kept by every run.
-/

namespace SmtCount

/-- Does an entry wait for counts, for a task with this parent? -/
def Entry.uses (p : TaskId) (e : Entry) : Bool :=
  decide (e.parent = some p) && !e.aggregation.isFinal

namespace Aggregator

/-- How many users the context of a parent has, if there is one. -/
def users (s : Aggregator) (p : TaskId) : Nat :=
  ((s.contexts.get? p).map ContextSlot.users).getD 0

/-- How many tasks with a parent wait for counts. -/
def unfinished (s : Aggregator) (p : TaskId) : Nat :=
  s.entries.values.countP (Entry.uses p)

/-- Has every context that is kept a user? -/
def NoIdle (s : Aggregator) : Prop :=
  ∀ p slot, s.contexts.get? p = some slot → 0 < slot.users

/-! ### Users of a context -/

section Users

variable {s t : Aggregator} {p : TaskId}

theorem users_of_contexts_eq (h : t.contexts = s.contexts) : t.users p = s.users p := by
  rw [users, h]
  rfl

theorem users_insert (s : Aggregator) (q : TaskId) (slot : ContextSlot) :
    ({ s with contexts := s.contexts.insert q slot } : Aggregator).users p =
      if q = p then slot.users else s.users p := by
  rw [users, Table.get?_insert]
  split <;> rfl

theorem users_erase (s : Aggregator) (q : TaskId) :
    ({ s with contexts := s.contexts.erase q } : Aggregator).users p =
      if q = p then 0 else s.users p := by
  rw [users, Table.get?_erase]
  split <;> rfl

/-- Taking the context of a parent makes one more user. -/
theorem users_acquireParentContext (task : Task) (s : Aggregator) (p : TaskId) :
    (acquireParentContext task s).2.1.users p =
      s.users p + (decide (task.parent.map Task.id = some p)).toNat := by
  unfold acquireParentContext
  cases task.parent with
  | none => rfl
  | some parent =>
    show (acquireContext parent s).2.1.users p = _
    have husers {slot : ContextSlot} (hslot : slot.users = s.users parent.id + 1) :
        ({ s with contexts := s.contexts.insert parent.id slot } : Aggregator).users p =
          s.users p + (decide (some parent.id = some p)).toNat := by
      rw [users_insert]
      by_cases hp : parent.id = p
      · subst hp
        simpa using hslot
      · simp [hp]
    unfold acquireContext
    cases hget : s.contexts.get? parent.id with
    | none => exact husers (by simp [users, hget])
    | some slot => exact husers (by simp [users, hget])

/-- Giving the context of a parent back makes one user less. -/
theorem users_releaseParentContext (parent : Option TaskId) (s : Aggregator) (p : TaskId) :
    (releaseParentContext parent s).2.1.users p = s.users p - (decide (parent = some p)).toNat := by
  cases parent with
  | none => rfl
  | some q =>
    show (releaseContext q s).2.1.users p = _
    unfold releaseContext
    by_cases hq : q = p
    · subst hq
      cases hget : s.contexts.get? q with
      | none => simp [users, hget]
      | some slot =>
        have hslot : s.users q = slot.users := by simp [users, hget]
        dsimp only
        split
        · rw [users_erase, if_pos rfl, hslot, decide_eq_true rfl, Bool.toNat_true]
          omega
        · rw [users_insert, if_pos rfl, hslot, decide_eq_true rfl, Bool.toNat_true]
    · have hne : (decide (some q = some p)).toNat = 0 := by simp [hq]
      rw [hne, Nat.sub_zero]
      split
      · rfl
      · split
        · exact (users_erase s q).trans (if_neg hq)
        · exact (users_insert s q _).trans (if_neg hq)

/-- A context is missing exactly if it has no users. -/
theorem NoIdle.get?_eq_none_iff (hs : NoIdle s) : s.contexts.get? p = none ↔ s.users p = 0 := by
  cases hget : s.contexts.get? p with
  | none => simp [users, hget]
  | some slot =>
    have hslot := hs p slot hget
    simp only [users, hget, Option.map_some, Option.getD_some, reduceCtorEq, false_iff]
    omega

theorem NoIdle.insert (hs : NoIdle s) (q : TaskId) {slot : ContextSlot} (hslot : 0 < slot.users) :
    NoIdle { s with contexts := s.contexts.insert q slot } := by
  intro p slot' h
  rw [Table.get?_insert] at h
  split at h
  · exact Option.some.inj h ▸ hslot
  · exact hs p slot' h

theorem NoIdle.erase (hs : NoIdle s) (q : TaskId) :
    NoIdle { s with contexts := s.contexts.erase q } := by
  intro p slot h
  rw [Table.get?_erase] at h
  split at h
  · cases h
  · exact hs p slot h

theorem NoIdle.acquireParentContext (hs : NoIdle s) (task : Task) :
    NoIdle (acquireParentContext task s).2.1 := by
  unfold Aggregator.acquireParentContext
  cases task.parent with
  | none => exact hs
  | some parent =>
    show NoIdle (acquireContext parent s).2.1
    unfold acquireContext
    split
    · exact hs.insert _ (Nat.succ_pos _)
    · exact hs.insert _ Nat.one_pos

theorem NoIdle.releaseParentContext (hs : NoIdle s) (parent : Option TaskId) :
    NoIdle (releaseParentContext parent s).2.1 := by
  cases parent with
  | none => exact hs
  | some q =>
    show NoIdle (releaseContext q s).2.1
    unfold releaseContext
    split
    · exact hs
    · rename_i slot _
      split
      · exact hs.erase q
      · exact hs.insert q (by dsimp only; omega)

end Users

/-! ### Unfinished tasks -/

section Unfinished

variable {s t : Aggregator} {p : TaskId}

theorem countP_cons_toNat {α : Type} (f : α → Bool) (a : α) (l : List α) :
    (a :: l).countP f = l.countP f + (f a).toNat := by
  rw [List.countP_cons]
  cases f a <;> rfl

theorem unfinished_of_entries_eq (h : t.entries = s.entries) : t.unfinished p = s.unfinished p := by
  rw [unfinished, h]
  rfl

/-- A task that had no entry is unfinished if its entry waits. -/
theorem unfinished_insert_new {task : TaskId} (h : s.entries.get? task = none) (e : Entry) :
    ({ s with entries := s.entries.insert task e } : Aggregator).unfinished p =
      s.unfinished p + (e.uses p).toNat := by
  have hperm := (Table.rows_insert_perm h e).map Prod.snd
  exact (hperm.countP_eq (Entry.uses p)).trans (countP_cons_toNat _ _ _)

/-- Whether a task with an entry is unfinished depends on the entry that it has now. -/
theorem unfinished_insert_old {task : TaskId} {e : Entry} (h : s.entries.get? task = some e) (e' : Entry) :
    ({ s with entries := s.entries.insert task e' } : Aggregator).unfinished p + (e.uses p).toNat =
      s.unfinished p + (e'.uses p).toNat := by
  obtain ⟨rest, hold, hnew⟩ := Table.exists_rows_insert_perm h e'
  have h₁ := (hold.map Prod.snd).countP_eq (Entry.uses p)
  have h₂ := (hnew.map Prod.snd).countP_eq (Entry.uses p)
  rw [List.map_cons, countP_cons_toNat] at h₁ h₂
  have h₁' : s.unfinished p = (rest.map Prod.snd).countP (Entry.uses p) + (e.uses p).toNat := h₁
  have h₂' : ({ s with entries := s.entries.insert task e' } : Aggregator).unfinished p =
      (rest.map Prod.snd).countP (Entry.uses p) + (e'.uses p).toNat := h₂
  omega

/-- A task without an entry is not unfinished. -/
theorem unfinished_erase (hkeys : s.entries.keys.Nodup) {task : TaskId} {e : Entry}
    (h : s.entries.get? task = some e) :
    ({ s with entries := s.entries.erase task } : Aggregator).unfinished p + (e.uses p).toNat =
      s.unfinished p := by
  have hperm := (Table.rows_perm_erase hkeys h).map Prod.snd
  exact ((hperm.countP_eq (Entry.uses p)).trans (countP_cons_toNat _ _ _)).symm

/-- Whether an entry waits after a notification. -/
theorem uses_after_receive (p : TaskId) (e : Entry) (sub : TaskId) (n : Nat) :
    Entry.uses p { e with aggregation := (e.aggregation.receive sub n).2 } =
      (e.uses p && !(e.aggregation.receive sub n).1.settles) := by
  simp only [Entry.uses, Aggregation.isFinal_receive, Bool.not_or, Bool.and_assoc]

/-- Only a notification to an entry that waits makes the count final. -/
theorem uses_of_settles {e : Entry} {sub : TaskId} {n : Nat}
    (h : (e.aggregation.receive sub n).1.settles = true) : e.uses p = decide (e.parent = some p) := by
  have hwaits : e.aggregation.isFinal = false := by
    by_contra hfinal
    rw [Aggregation.receive_of_isFinal (by simpa using hfinal)] at h
    cases h
  rw [Entry.uses, hwaits, Bool.not_false, Bool.and_true]

/-- A notification that makes the count final is where an entry stops to wait. -/
theorem uses_receive_add (p : TaskId) (e : Entry) (sub : TaskId) (n : Nat) :
    (Entry.uses p { e with aggregation := (e.aggregation.receive sub n).2 }).toNat +
        ((e.aggregation.receive sub n).1.settles && decide (e.parent = some p)).toNat =
      (e.uses p).toNat := by
  rw [uses_after_receive]
  cases hsettles : (e.aggregation.receive sub n).1.settles with
  | true => simp [uses_of_settles hsettles]
  | false => simp

end Unfinished

/-! ### References that operations hold -/

/-- Does an operation hold a reference to the context of a parent?  One that has forgotten an entry has
taken over the reference of the entry. -/
def Call.holds (s : Shared) (p : TaskId) : Call → Bool
  | .split task _ | .register task _ | .withdraw task _ | .settle task =>
    decide (task.parent.map Task.id = some p)
  | .release parent _ | .abandon parent _ => decide (parent = some p)
  | .inspect h => (s.entry? h).any (Entry.uses p)
  | _ => false

namespace Workers

/-- How many references to the context of a parent are held, by entries and by operations. -/
def references (p : TaskId) (w : Workers) : Nat :=
  w.shared.state.unfinished p + w.calls.countP (Call.holds w.shared p)

end Workers

/-- Does the next section of an operation leave the references to the context of a parent to those who
hold them? -/
def Call.Respects (p : TaskId) (w : Workers) : Call → Prop
  | .dropContext task => task = p → w.references p = 0
  | .deliver h sub n => ∀ e ∈ w.shared.entry? h, e.parent = some p →
    (e.aggregation.receive sub n).1.settles = true → h.generation = w.shared.generation h.task
  | _ => True

instance (p : TaskId) (w : Workers) : ∀ c : Call, Decidable (c.Respects p w)
  | .dropContext task => inferInstanceAs (Decidable (task = p → w.references p = 0))
  | .deliver h sub n => inferInstanceAs (Decidable (∀ e ∈ w.shared.entry? h, e.parent = some p →
      (e.aggregation.receive sub n).1.settles = true → h.generation = w.shared.generation h.task))
  | .request _ | .lookUp _ | .readChildren _ | .acquire _ | .split _ _ | .register _ _
  | .withdraw _ _ | .settle _ | .count _ _ | .notify _ _ _ | .release _ _ | .forget _ | .inspect _
  | .abandon _ _ | .answered _ => .isTrue trivial

namespace Shared

variable {s : Shared} {p : TaskId}

/-- Only the entries change when an entry changes. -/
theorem put_contexts (s : Shared) (h : Handle) (e : Entry) :
    (s.put h e).state.contexts = s.state.contexts := by
  unfold put
  split <;> rfl

theorem detach_contexts (s : Shared) (task : TaskId) :
    (s.detach task).state.contexts = s.state.contexts := by
  unfold detach
  split <;> rfl

/-- A notification to an entry in reach, and whether the task is still unfinished. -/
theorem unfinished_put {h : Handle} {e : Entry} (hs : s.entry? h = some e)
    (hgen : h.generation = s.generation h.task) (e' : Entry) :
    (s.put h e').state.unfinished p + (e.uses p).toNat = s.state.unfinished p + (e'.uses p).toNat := by
  rw [ entry?, if_pos hgen] at hs
  rw [put, if_pos hgen]
  exact unfinished_insert_old hs e'

theorem unfinished_put_forgotten {h : Handle} (hgen : h.generation ≠ s.generation h.task) (e' : Entry) :
    (s.put h e').state.unfinished p = s.state.unfinished p := by
  rw [put, if_neg hgen]

theorem unfinished_detach (hkeys : s.state.entries.keys.Nodup) {task : TaskId} {e : Entry}
    (h : s.state.entries.get? task = some e) :
    (s.detach task).state.unfinished p + (e.uses p).toNat = s.state.unfinished p := by
  rw [detach, h]
  exact unfinished_erase hkeys h

/-- A notification that makes the count final frees the reference of the entry, if that is in reach. -/
theorem unfinished_deliver {h : Handle} {e : Entry} (sub : TaskId) (n : Nat) (he : s.entry? h = some e)
    (hgen : e.parent = some p → (e.aggregation.receive sub n).1.settles = true →
      h.generation = s.generation h.task) :
    (s.put h { e with aggregation := (e.aggregation.receive sub n).2 }).state.unfinished p +
        ((e.aggregation.receive sub n).1.settles && decide (e.parent = some p)).toNat =
      s.state.unfinished p := by
  by_cases hreach : h.generation = s.generation h.task
  · have hput := unfinished_put (p := p) he hreach
      { e with aggregation := (e.aggregation.receive sub n).2 }
    have huses := uses_receive_add p e sub n
    omega
  · have hnone : ((e.aggregation.receive sub n).1.settles && decide (e.parent = some p)) = false := by
      by_contra hboth
      rw [Bool.not_eq_false, Bool.and_eq_true, decide_eq_true_iff] at hboth
      exact hreach (hgen hboth.2 hboth.1)
    rw [unfinished_put_forgotten hreach, hnone, Bool.toNat_false, Nat.add_zero]

/-- A reference that is given back is missing from the users. -/
theorem users_giveBack {parent : Option TaskId} {others : Nat}
    (husers : s.state.users p = s.state.unfinished p + (decide (parent = some p)).toNat + others) :
    (s.act (releaseParentContext parent)).2.1.state.users p =
      (s.act (releaseParentContext parent)).2.1.state.unfinished p + 0 + others := by
  rw [state_act, users_releaseParentContext,
    unfinished_of_entries_eq (keepsEntries_releaseParentContext parent s.state), husers]
  omega

/-! ### One section -/

/-- What a section does to the contexts: nothing, or it takes one, gives one back, or drops one. -/
theorem contexts_step (s : Shared) (c : Call) :
    (c.step s).2.1.state.contexts = s.state.contexts ∨
      (∃ task, (c.step s).2.1.state.contexts = (acquireParentContext task s.state).2.1.contexts) ∨
      (∃ parent, (c.step s).2.1.state.contexts = (releaseParentContext parent s.state).2.1.contexts) ∨
      ∃ task, (c.step s).2.1.state.contexts = s.state.contexts.erase task := by
  have heffect := c.effect_step s
  generalize (c.step s).2.1 = t at heffect ⊢
  cases heffect with
  | acquire task => exact .inr (.inl ⟨task, rfl⟩)
  | giveBack parent => exact .inr (.inr (.inl ⟨parent, rfl⟩))
  | drop task => exact .inr (.inr (.inr ⟨task, rfl⟩))
  | deliver _ _ _ => exact .inl (put_contexts s _ _)
  | detach _ => exact .inl (detach_contexts s _)
  | _ => exact .inl rfl

end Shared

theorem NoIdle.of_contexts_eq {s t : Aggregator} (hs : NoIdle s) (h : t.contexts = s.contexts) :
    NoIdle t :=
  fun p slot hslot => hs p slot (h ▸ hslot)

/-- No section leaves an idle context behind. -/
theorem NoIdle.step {s : Shared} (hs : NoIdle s.state) (c : Call) : NoIdle (c.step s).2.1.state := by
  rcases Shared.contexts_step s c with h | ⟨task, h⟩ | ⟨parent, h⟩ | ⟨task, h⟩
  · exact hs.of_contexts_eq h
  · exact (hs.acquireParentContext task).of_contexts_eq h
  · exact (hs.releaseParentContext parent).of_contexts_eq h
  · exact (hs.erase task).of_contexts_eq h

/-- No section makes two rows for one task. -/
theorem Shared.nodup_keys_step {s : Shared} (hkeys : s.state.entries.keys.Nodup) (c : Call) :
    (c.step s).2.1.state.entries.keys.Nodup := by
  have hkeep {α : Type} {x : Action α} (hx : x.KeepsEntries) :
      (s.act x).2.1.state.entries.keys.Nodup := by
    rw [Shared.state_act, hx s.state]
    exact hkeys
  have heffect := c.effect_step s
  generalize (c.step s).2.1 = t at heffect ⊢
  cases heffect with
  | acquire task => exact hkeep (keepsEntries_acquireParentContext task)
  | giveBack parent => exact hkeep (keepsEntries_releaseParentContext parent)
  | register children hnew => exact Table.nodup_keys_insert hkeys _ _
  | deliver _ _ _ =>
    dsimp only [Shared.put]
    split
    · exact Table.nodup_keys_insert hkeys _ _
    · exact hkeys
  | detach he =>
    rw [Shared.detach, he]
    exact Table.nodup_keys_erase hkeys _
  | _ => exact hkeys

/-! ### The reference of an operation -/

namespace Call

/-- Are the users of the context of a parent the references that the entries, this operation and `others` hold? -/
def Balanced (s : Shared) (p : TaskId) (others : Nat) (c : Call) : Prop :=
  s.state.users p = s.state.unfinished p + (c.holds s p).toNat + others

section Balance

variable {s : Shared} {p : TaskId} {others : Nat}

/-- An operation that takes a context holds the reference. -/
theorem balanced_acquire {task : Task} (h : (acquire task).Balanced s p others) :
    ((acquire task).step s).1.Balanced ((acquire task).step s).2.1 p others := by
  have hunfinished : (acquireParentContext task s.state).2.1.unfinished p = s.state.unfinished p :=
    unfinished_of_entries_eq (keepsEntries_acquireParentContext task s.state)
  show (acquireParentContext task s.state).2.1.users p = (acquireParentContext task s.state).2.1.unfinished p +
    (decide (task.parent.map Task.id = some p)).toNat + others
  rw [users_acquireParentContext, hunfinished, h]
  simp only [holds, Bool.toNat_false]
  omega

/-- A new entry takes the reference over, unless there is nothing to wait for. -/
theorem balanced_register {task : Task} {children : List Task} (h : (register task children).Balanced s p others) :
    ((register task children).step s).1.Balanced ((register task children).step s).2.1 p others := by
  rw [step]
  split
  · exact h
  · rename_i hnew
    dsimp only
    rw [Shared.act_register hnew]
    have hunfinished (e : Entry) : (s.keep task.id e).state.unfinished p =
        s.state.unfinished p + (e.uses p).toNat :=
      unfinished_insert_new (Shared.get?_entries_of_handle? hnew) e
    have husers (e : Entry) : (s.keep task.id e).state.users p = s.state.users p :=
      users_of_contexts_eq rfl
    rw [Balanced, husers, hunfinished, h]
    simp only [holds, Entry.uses]
    cases (Aggregation.start children).isFinal <;> simp

/-- An entry whose count becomes final gives its reference to the operation. -/
theorem balanced_deliver {k : Handle} {sub : TaskId} {n : Nat} (h : (deliver k sub n).Balanced s p others)
    (hreach : ∀ e ∈ s.entry? k, e.parent = some p → (e.aggregation.receive sub n).1.settles = true →
      k.generation = s.generation k.task) :
    ((deliver k sub n).step s).1.Balanced ((deliver k sub n).step s).2.1 p others := by
  rw [step]
  split
  · exact h
  · rename_i e he
    have hdeliver := Shared.unfinished_deliver sub n he fun hp => hreach e he hp
    dsimp only
    rw [Balanced, users_of_contexts_eq (Shared.put_contexts s k _), h]
    split
    · rename_i hsettles
      rw [hsettles] at hdeliver
      simp only [holds, Bool.toNat_false, Bool.true_and] at hdeliver ⊢
      omega
    · rename_i hwaits
      rw [Bool.eq_false_of_not_eq_true hwaits] at hdeliver
      simp only [holds, Bool.toNat_false, Bool.false_and] at hdeliver ⊢
      omega

/-- A forgotten entry leaves its reference to the operation. -/
theorem balanced_forget (hkeys : s.state.entries.keys.Nodup) {task : TaskId}
    (h : (forget task).Balanced s p others) :
    ((forget task).step s).1.Balanced ((forget task).step s).2.1 p others := by
  rw [step]
  split
  · rename_i k hk
    obtain ⟨e, he, rfl⟩ := Option.map_eq_some_iff.mp hk
    have hdetach := Shared.unfinished_detach (p := p) hkeys he
    have hentry := ((Shared.holds_handle he).detach task).entry
    dsimp only
    rw [Balanced, users_of_contexts_eq (Shared.detach_contexts s task), h]
    simp only [holds, hentry, Option.any_some, Bool.toNat_false]
    omega
  · exact h

/-- An operation that has forgotten an entry has its reference to give back, if the entry is unfinished. -/
theorem balanced_inspect {k : Handle} (h : (inspect k).Balanced s p others) :
    ((inspect k).step s).1.Balanced ((inspect k).step s).2.1 p others := by
  rw [Balanced, holds] at h
  rw [step]
  split
  · rename_i e he
    rw [he, Option.any_some, Entry.uses] at h
    dsimp only
    rw [Balanced, h]
    cases e.aggregation.isFinal <;> simp [holds]
  · rename_i he
    rw [he] at h
    exact h

/-- A context is dropped when there are no references to it. -/
theorem balanced_dropContext {task : TaskId} (h : (dropContext task).Balanced s p others)
    (hfree : task = p → s.state.unfinished p + others = 0) :
    ((dropContext task).step s).1.Balanced ((dropContext task).step s).2.1 p others := by
  show ({ s.state with contexts := s.state.contexts.erase task } : Aggregator).users p =
    s.state.unfinished p + 0 + others
  rw [users_erase]
  split
  · rename_i htask
    have hnone := hfree htask
    omega
  · exact h

/-- **One section, its own reference.**  If the users are the references that the entries, this operation
and `others` hold, then they still are after a section of this operation that respects them. -/
theorem balanced_step {w : Workers} {c : Call} (hkeys : w.shared.state.entries.keys.Nodup)
    (hrespects : c.Respects p w)
    (hrefs : w.references p = w.shared.state.unfinished p + (c.holds w.shared p).toNat + others)
    (husers : w.shared.state.users p = w.references p) :
    (c.step w.shared).1.Balanced (c.step w.shared).2.1 p others := by
  have h : c.Balanced w.shared p others := husers.trans hrefs
  cases c with
  | acquire task => exact balanced_acquire h
  | register task children => exact balanced_register h
  | deliver k sub n => exact balanced_deliver h hrespects
  | forget task => exact balanced_forget hkeys h
  | inspect k => exact balanced_inspect h
  | dropContext task =>
    refine balanced_dropContext h fun htask => ?_
    have hnone : w.references p = 0 := hrespects htask
    rw [hrefs] at hnone
    omega
  | withdraw _ _ | settle _ | release _ _ | abandon _ _ => exact Shared.users_giveBack h
  | split task context =>
    rw [Balanced, state_split]
    exact h
  | lookUp task =>
    rw [step]
    split <;> exact h
  | notify task sub n =>
    rw [step]
    split
    · exact h
    · rename_i hnew
      dsimp only
      rw [Shared.act_childDone hnew]
      exact h
  -- these sections touch neither entries nor contexts
  | request _ | readChildren _ | count _ _ | answered _ => exact h

end Balance

end Call

/-- **One section, the references of others.**  A section that respects the references leaves those of the
other operations where they are. -/
theorem Call.holds_step {w : Workers} {p : TaskId} {c : Call} (hrespects : c.Respects p w) {c' : Call}
    (hforgotten : ∀ h, c' = .inspect h →
      (∃ e, w.shared.Holds h e) ∧ h.generation ≠ w.shared.generation h.task) :
    c'.holds (c.step w.shared).2.1 p = c'.holds w.shared p := by
  cases c' with
  | inspect h =>
    obtain ⟨⟨e, he⟩, hgen⟩ := hforgotten h rfl
    have hstep := he.step c
    simp only [Call.holds, he.entry, hstep.entry, Option.any_some]
    cases hd : c.delivery? h with
    | none => rfl
    | some n =>
      obtain rfl := Call.eq_deliver_of_delivery? hd
      refine (uses_after_receive p e n.sub n.count).trans ?_
      by_cases hp : e.parent = some p
      · have hwaits : (e.aggregation.receive n.sub n.count).1.settles = false := by
          by_contra hsettles
          exact hgen (hrespects e he.entry hp (by simpa using hsettles))
        rw [hwaits, Bool.not_false, Bool.and_true]
      · simp [Entry.uses, hp]
  | _ => rfl

/-! ### Runs -/

namespace Workers

variable {w : Workers} {p : TaskId}

/-- The operations besides one, whatever becomes of that one. -/
theorem exists_others {i : Nat} {c : Call} (hi : w.calls[i]? = some c) :
    ∃ others, w.calls.Perm (c :: others) ∧ ∀ c', (w.calls.set i c').Perm (c' :: others) := by
  obtain ⟨hlt, rfl⟩ := List.getElem?_eq_some_iff.mp hi
  exact ⟨w.calls.eraseIdx i, (List.getElem_cons_eraseIdx_perm hlt).symm,
    List.set_perm_cons_eraseIdx hlt⟩

/-- The users of the context of a parent are the references to it that are held. -/
structure Accounts (p : TaskId) (w : Workers) : Prop where
  users_eq : w.shared.state.users p = w.references p
  noIdle : NoIdle w.shared.state
  nodup_keys : w.shared.state.entries.keys.Nodup
  /-- An operation that has forgotten an entry has its handle, and nobody finds it by its task. -/
  forgotten : ∀ h, Call.inspect h ∈ w.calls →
    (∃ e, w.shared.Holds h e) ∧ h.generation ≠ w.shared.generation h.task

/-- What an operation that forgets an entry knows about it. -/
theorem forgotten_of_step_eq_inspect {s : Shared} {c : Call} {h : Handle}
    (hc : (c.step s).1 = .inspect h) : (∃ e, (c.step s).2.1.Holds h e) ∧
      h.generation ≠ (c.step s).2.1.generation h.task := by
  cases c with
  | forget task =>
    rw [Call.step] at hc ⊢
    split at hc
    · rename_i k hk
      obtain rfl := Call.inspect.inj hc
      obtain ⟨e, he, rfl⟩ := Option.map_eq_some_iff.mp hk
      refine ⟨⟨e, (Shared.holds_handle he).detach task⟩, ?_⟩
      have hgen := Shared.generation_detach he task
      rw [if_pos rfl] at hgen
      dsimp only
      rw [hgen]
      exact Nat.ne_of_lt (Nat.lt_succ_self _)
    · cases hc
  | lookUp _ | register _ _ | notify _ _ _ | deliver _ _ _ | inspect _ =>
    rw [Call.step] at hc
    grind
  | _ => cases hc

/-- **Users are references, after one section.** -/
theorem Accounts.step (hw : w.Accounts p) {i : Nat} (hi : ∀ c ∈ w.calls[i]?, c.Respects p w) :
    (w.step i).1.Accounts p := by
  cases hcall : w.calls[i]? with
  | none =>
    rw [step_of_none hcall]
    exact hw
  | some c =>
    have hrespects := hi c hcall
    obtain ⟨others, hold, hnew⟩ := exists_others hcall
    have hmem : ∀ c' ∈ others, c' ∈ w.calls := fun c' hc' => hold.symm.subset (List.mem_cons_of_mem c hc')
    -- what the other operations hold stays the same
    have hothers : others.countP (Call.holds (c.step w.shared).2.1 p) =
        others.countP (Call.holds w.shared p) := by
      refine List.countP_congr fun c' hc' => ?_
      rw [Call.holds_step hrespects fun h heq => hw.forgotten h (heq ▸ hmem c' hc')]
    have hrefs : w.references p = w.shared.state.unfinished p + (c.holds w.shared p).toNat +
        others.countP (Call.holds w.shared p) := by
      rw [references, hold.countP_eq, countP_cons_toNat]
      omega
    rw [step_of_some hcall]
    refine ⟨?_, hw.noIdle.step c, Shared.nodup_keys_step hw.nodup_keys c, fun h hh => ?_⟩
    · have hbalanced := Call.balanced_step hw.nodup_keys hrespects hrefs hw.users_eq
      rw [hbalanced, references, (hnew _).countP_eq, countP_cons_toNat, hothers]
      dsimp only
      omega
    · rcases List.mem_cons.mp ((hnew _).subset hh) with heq | hother
      · exact forgotten_of_step_eq_inspect heq.symm
      · obtain ⟨⟨e, he⟩, hne⟩ := hw.forgotten h (hmem _ hother)
        have hlt : h.generation < w.shared.generation h.task := Nat.lt_of_le_of_ne he.generation_le hne
        exact ⟨⟨_, he.step c⟩,
          Nat.ne_of_lt (Nat.lt_of_lt_of_le hlt (Shared.generation_le_step w.shared c h.task))⟩

/-- Does every section of a run leave the references to the context of a parent to those who hold
them? -/
def Respects (p : TaskId) (w : Workers) : List Nat → Prop
  | [] => True
  | i :: schedule => (∀ c ∈ w.calls[i]?, c.Respects p w) ∧ (w.step i).1.Respects p schedule

instance decidableRespects (p : TaskId) : ∀ (w : Workers) (schedule : List Nat),
    Decidable (w.Respects p schedule)
  | _, [] => .isTrue trivial
  | w, i :: schedule =>
    have := decidableRespects p (w.step i).1 schedule
    inferInstanceAs (Decidable ((∀ c ∈ w.calls[i]?, c.Respects p w) ∧ (w.step i).1.Respects p schedule))

/-- **Users are references, after a run.** -/
theorem Accounts.run (hw : w.Accounts p) {schedule : List Nat} (h : w.Respects p schedule) :
    (w.run schedule).1.Accounts p := by
  induction schedule generalizing w with
  | nil => exact hw
  | cons i schedule ih => exact ih (hw.step h.1) h.2

/-- A new aggregator, which gives its first task a number, and some operations on it. -/
def start (nextTask : Nat) (calls : List Call) : Workers :=
  ⟨{ state := { nextTask } }, calls⟩

theorem accounts_start {n : Nat} {calls : List Call} (hcalls : ∀ c ∈ calls, c.begins = true) :
    (start n calls).Accounts p := by
  have hnone : calls.countP (Call.holds (start n calls).shared p) = 0 := by
    refine List.countP_eq_zero.mpr fun c hc => ?_
    have hbegins := hcalls c hc
    cases c with
    | request _ | notify _ _ _ | forget _ => simp [Call.holds]
    | _ => cases hbegins
  refine ⟨?_, fun q slot hslot => ?_, List.nodup_nil, fun h hh => ?_⟩
  · show 0 = 0 + calls.countP (Call.holds (start n calls).shared p)
    rw [hnone]
  · cases hslot
  · cases hcalls _ hh

/-- **The context of an unfinished task is kept** by a run that respects the references to it, and its
users are the references that are held. -/
theorem context_kept {n : Nat} {calls : List Call} {schedule : List Nat} {p task : TaskId} {e : Entry}
    (hcalls : ∀ c ∈ calls, c.begins = true) (hrespects : (start n calls).Respects p schedule) :
    let w := ((start n calls).run schedule).1
    w.shared.state.entries.get? task = some e → e.parent = some p → e.aggregation.isFinal = false →
      ∃ slot, w.shared.state.contexts.get? p = some slot ∧ slot.users = w.references p := by
  intro w he hparent hwaits
  have hw : w.Accounts p := (accounts_start hcalls).run hrespects
  have huses : e.uses p = true := by simp [Entry.uses, hparent, hwaits]
  have hpos : 0 < w.references p := by
    refine Nat.lt_of_lt_of_le ?_ (Nat.le_add_right _ _)
    exact List.countP_pos_iff.mpr ⟨e, Table.mem_values_of_get? he, huses⟩
  have husers := hw.users_eq
  cases hslot : w.shared.state.contexts.get? p with
  | none =>
    rw [users, hslot] at husers
    exact absurd husers.symm (Nat.ne_of_gt hpos)
  | some slot =>
    rw [users, hslot] at husers
    exact ⟨slot, rfl, husers⟩

/-! ### Contexts that are not kept -/

/-- Does an operation begin to forget a task in a run? -/
def forgets (task : TaskId) (w : Workers) : List Nat → Bool
  | [] => false
  | i :: schedule =>
    (match w.calls[i]? with
      | some (.forget t) => decide (t = task)
      | _ => false) || (w.step i).1.forgets task schedule

/-- Is a context kept while an unfinished task uses it, in every run?  The request with the number `j` begins
and registers its task, and from its beginning on no operation begins to forget the task or its parent. -/
def KeepsUsedContexts (w₀ : Workers) : Prop :=
  ∀ (before during after : List Nat) (j : Nat) (task parent : Task) (children : List Task) (e : Entry),
    let w := (w₀.run before).1
    let w' := (w.run (during ++ j :: after)).1
    w.calls[j]? = some (.request task) → task.parent = some parent →
    (w.run during).1.Registers j task children →
    w.forgets task.id (during ++ j :: after) = false →
    w.forgets parent.id (during ++ j :: after) = false →
    w'.shared.state.entries.get? task.id = some e → e.aggregation.isFinal = false →
      w'.shared.state.contexts.contains parent.id = true

/-- A parent. -/
def familyParent : Task :=
  .mk ⟨1⟩ "host" none (.var ⟨"v", .int, by decide⟩)

/-- A task with a parent. -/
def elderTask : Task :=
  .mk ⟨2⟩ "host" (some familyParent) (.var ⟨"w", .int, by decide⟩)

/-- Another task with the same parent. -/
def youngerTask : Task :=
  .mk ⟨3⟩ "host" (some familyParent) (.var ⟨"z", .int, by decide⟩)

/-- Both tasks are requested, and one of them has its count. -/
def family : List Call :=
  [.request elderTask, .request youngerTask, .notify ⟨2⟩ ⟨4⟩ 0]

/-- The run of `family` in which every operation runs to its end before the next one begins. -/
def familySchedule : List Nat :=
  List.replicate 6 0 ++ List.replicate 6 1 ++ List.replicate 3 2

/-- The younger task uses the context after the elder one has given it back. -/
theorem family_context_kept :
    let w := ((start 4 family).run familySchedule).1
    (∀ c ∈ family, c.begins = true) ∧ (start 4 family).Respects ⟨1⟩ familySchedule ∧
      ∃ e, w.shared.state.entries.get? ⟨3⟩ = some e ∧ e.parent = some ⟨1⟩ ∧
        e.aggregation.isFinal = false ∧
        ∃ slot, w.shared.state.contexts.get? ⟨1⟩ = some slot ∧ slot.users = w.references ⟨1⟩ := by
  have hcalls : ∀ c ∈ family, c.begins = true := by simp [family, Call.begins]
  have hrespects : (start 4 family).Respects ⟨1⟩ familySchedule := by decide +kernel
  have he : ((start 4 family).run familySchedule).1.shared.state.entries.get? ⟨3⟩ =
      some ⟨some ⟨1⟩, .start [.mk ⟨5⟩ "host" none (.var ⟨"z", .int, by decide⟩)]⟩ := by cbv
  exact ⟨hcalls, hrespects, _, he, rfl, rfl, context_kept hcalls hrespects he rfl rfl⟩

/-- The parent is forgotten between the requests for the two tasks. -/
def forgottenParent : List Call :=
  [.request elderTask, .forget ⟨1⟩, .request youngerTask, .notify ⟨2⟩ ⟨4⟩ 0]

/-- The elder task is forgotten while the count for it is on its way. -/
def overtakenNotice : List Call :=
  [.request elderTask, .request youngerTask, .notify ⟨2⟩ ⟨4⟩ 0, .forget ⟨2⟩]

/-- **A context may go while an unfinished task uses it**: the elder task gives its reference back to a
context that was built after the parent was forgotten, even when the operations run one after
another; or it gives its reference back twice, once for being forgotten and once for its count. -/
theorem not_keepsUsedContexts :
    ¬KeepsUsedContexts (start 4 forgottenParent) ∧ ¬KeepsUsedContexts (start 4 overtakenNotice) := by
  constructor
  · intro h
    have hkept := h (List.replicate 6 0 ++ [1, 1]) [2, 2, 2, 2] [2, 3, 3, 3] 2 youngerTask familyParent
      [.mk ⟨5⟩ "host" none (.var ⟨"z", .int, by decide⟩)]
      ⟨some ⟨1⟩, .start [.mk ⟨5⟩ "host" none (.var ⟨"z", .int, by decide⟩)]⟩
      (by cbv) rfl ⟨by cbv, by cbv⟩ (by decide +kernel) (by decide +kernel) (by cbv) rfl
    revert hkept
    decide +kernel
  · intro h
    have hkept := h (List.replicate 6 0) [1, 1, 1, 1] [1, 2, 3, 3, 3, 3, 2, 2] 1 youngerTask familyParent
      [.mk ⟨5⟩ "host" none (.var ⟨"z", .int, by decide⟩)]
      ⟨some ⟨1⟩, .start [.mk ⟨5⟩ "host" none (.var ⟨"z", .int, by decide⟩)]⟩
      (by cbv) rfl ⟨by cbv, by cbv⟩ (by decide +kernel) (by decide +kernel) (by cbv) rfl
    revert hkept
    decide +kernel

end Workers

end Aggregator

end SmtCount
