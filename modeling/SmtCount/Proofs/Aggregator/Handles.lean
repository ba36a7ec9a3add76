import Mathlib
import SmtCount.Aggregator.Interleaving
import SmtCount.Proofs.Aggregator.Notices
import SmtCount.Proofs.Aggregator.Sections

/-!
# What a section does to an entry

An entry is reached by its handle, whether or not its task was forgotten meanwhile.  Of all the sections
that operations are made of, only one changes an entry that is there: the one that delivers a
notification to its handle.  So what an entry holds depends on its deliveries alone, and not on
anything else that runs at the same time.

## Main definitions

* `Shared.Holds s h e` — the handle `h` names the entry `e`.
* `Entry.after` — an entry after some notifications.
* `Call.Effect s c t` — what a section may make of the shared state.
* `Call.delivery? h` — the notification that the next section of an operation delivers to `h`.

## Main results

* `Call.effect_step` — every section has one of ten effects.
* `Shared.Holds.step` — **one section**: an entry takes what is delivered to it, and nothing else changes
  it.
-/

namespace SmtCount

namespace Entry

/-- The entry with its aggregation after some notifications. -/
def after (e : Entry) (ns : List Aggregation.Notice) : Entry :=
  { e with aggregation := e.aggregation.receiveAll ns }

theorem after_append (e : Entry) (ns ms : List Aggregation.Notice) :
    e.after (ns ++ ms) = (e.after ns).after ms := by
  simp only [after, Aggregation.receiveAll_append]

end Entry

namespace Aggregator

/-! ### Entries by handle -/

namespace Shared

/-- Does the handle name the entry?  A handle whose generation has not come yet names none. -/
structure Holds (s : Shared) (h : Handle) (e : Entry) : Prop where
  entry : s.entry? h = some e
  generation_le : h.generation ≤ s.generation h.task

variable {s : Shared} {h : Handle} {e : Entry}

theorem Holds.act {α : Type} (hs : s.Holds h e) {x : Action α} (hx : x.KeepsEntries) :
    (s.act x).2.1.Holds h e := by
  have hkeep : (s.act x).2.1.state.entries = s.state.entries := hx s.state
  refine ⟨?_, hs.generation_le⟩
  rw [← hs.entry, entry?, hkeep]
  rfl

/-- The entry of a task in reach is the one that the handle of the task names. -/
theorem holds_handle {task : TaskId} (hs : s.state.entries.get? task = some e) :
    s.Holds ⟨task, s.generation task⟩ e :=
  ⟨by rw [ entry?, if_pos rfl]; exact hs, Nat.le_refl _⟩

/-- The handle of an entry in reach is found by the task. -/
theorem Holds.handle? (hs : s.Holds h e) (hgen : h.generation = s.generation h.task) :
    s.handle? h.task = some h := by
  have hentry : s.state.entries.get? h.task = some e := by
    rw [← hs.entry, entry?, if_pos hgen]
  rw [Shared.handle?, hentry, Option.map_some, ← hgen]

@[simp] theorem generation_put (s : Shared) (h : Handle) (e : Entry) (task : TaskId) :
    (s.put h e).generation task = s.generation task := by
  unfold put
  split <;> rfl

/-- Changing an entry changes what its handle names, and nothing else. -/
theorem entry?_put (s : Shared) (k : Handle) (e' : Entry) (h : Handle) :
    Shared.entry? (s.put k e') h = if k = h then some e' else s.entry? h := by
  obtain ⟨kt, kg⟩ := k
  obtain ⟨t, g⟩ := h
  rw [ entry?, entry?, generation_put, put]
  -- of one task only the handle with the current generation names the entry in reach
  by_cases hreach : kg = s.generation kt
  · simp only [if_pos hreach, Table.get?_insert, Handle.mk.injEq]
    grind
  · simp only [if_neg hreach, Table.get?_insert, Handle.mk.injEq]
    grind

theorem Holds.put_self (hs : s.Holds h e) (e' : Entry) : (s.put h e').Holds h e' :=
  ⟨(s.entry?_put ..).trans (if_pos rfl), by rw [generation_put]; exact hs.generation_le⟩

theorem Holds.put_of_ne (hs : s.Holds h e) {k : Handle} (hk : k ≠ h) (e' : Entry) :
    (s.put k e').Holds h e :=
  ⟨(s.entry?_put ..).trans ((if_neg hk).trans hs.entry), by rw [generation_put]; exact hs.generation_le⟩

/-- Forgetting a task that has an entry begins a new generation. -/
theorem generation_detach {task : TaskId} (hs : s.state.entries.get? task = some e) (t : TaskId) :
    (s.detach task).generation t =
      if task = t then s.generation task + 1 else s.generation t := by
  simp only [Shared.detach, hs, generation, Table.get?_insert]
  split <;> rfl

theorem generation_le_detach (s : Shared) (task t : TaskId) :
    s.generation t ≤ (s.detach task).generation t := by
  cases hget : s.state.entries.get? task with
  | none => simp only [Shared.detach, hget, Nat.le_refl]
  | some e =>
    rw [generation_detach hget]
    split
    · rename_i htask
      rw [htask]
      exact Nat.le_succ _
    · exact Nat.le_refl _

/-- Forgetting a task leaves every entry as it is, for those who hold its handle; the handle that the task
has from then on names none. -/
theorem entry?_detach {task : TaskId} (hs : s.state.entries.get? task = some e) (h : Handle) :
    Shared.entry? (s.detach task) h = if h = ⟨task, s.generation task + 1⟩ then none else s.entry? h := by
  obtain ⟨t, g⟩ := h
  rw [ entry?, entry?, generation_detach hs t, Shared.detach, hs]
  simp only [Handle.mk.injEq, Table.get?_insert, Table.get?_erase]
  by_cases htask : task = t
  · subst htask
    -- the entry goes out of reach, and its handle finds it among the forgotten ones
    simp only [true_and, if_true]
    grind
  · simp only [htask, Ne.symm htask, false_and, if_false]

theorem Holds.detach (hs : s.Holds h e) (task : TaskId) : (s.detach task).Holds h e := by
  cases hget : s.state.entries.get? task with
  | none => simpa only [Shared.detach, hget] using hs
  | some e' =>
    obtain ⟨hentry, hle⟩ := hs
    have hne : h ≠ ⟨task, s.generation task + 1⟩ := by
      rintro rfl
      exact Nat.not_succ_le_self _ hle
    exact ⟨(Shared.entry?_detach hget h).trans ((if_neg hne).trans hentry),
      Nat.le_trans hle (generation_le_detach s task h.task)⟩

theorem state_act {α : Type} (s : Shared) (x : Action α) : (s.act x).2.1.state = (x s.state).2.1 := rfl

theorem get?_entries_of_handle? {task : TaskId} (h : s.handle? task = none) :
    s.state.entries.get? task = none := by
  simpa [handle?] using h

/-- The state with an entry for a task. -/
def keep (s : Shared) (task : TaskId) (e : Entry) : Shared :=
  { s with state := { s.state with entries := s.state.entries.insert task e } }

/-- Registering a task that has no entry keeps the entry. -/
theorem act_register {task : TaskId} (hnew : s.handle? task = none) (entry : Entry) :
    (s.act (Aggregator.register task entry)).2.1 = s.keep task entry := by
  rw [act, register_of_no_entry (get?_entries_of_handle? hnew)]
  rfl

/-- A notification for a task without an entry changes nothing. -/
theorem act_childDone {task : TaskId} (hnew : s.handle? task = none) (sub : TaskId) (n : Nat) :
    (s.act (childDone task sub n)).2.1 = s := by
  show { s with state := (childDone task sub n s.state).2.1 } = s
  rw [childDone_of_no_entry (get?_entries_of_handle? hnew)]

/-- Keeping an entry for a task gives it to the handle that the task has, and changes nothing else. -/
theorem entry?_keep (s : Shared) (task : TaskId) (entry : Entry) (h : Handle) :
    Shared.entry? (s.keep task entry) h = if h = ⟨task, s.generation task⟩ then some entry else s.entry? h := by
  obtain ⟨t, g⟩ := h
  have hgeneration : (s.keep task entry).generation t = s.generation t := rfl
  rw [ entry?, entry?, hgeneration, Shared.keep]
  simp only [Handle.mk.injEq, Table.get?_insert]
  by_cases htask : task = t
  · subst htask
    simp only [true_and, if_true]
    grind
  · simp only [htask, Ne.symm htask, false_and, if_false]

theorem Holds.keep (hs : s.Holds h e) {task : TaskId} (hnew : s.state.entries.get? task = none)
    (entry : Entry) : (s.keep task entry).Holds h e := by
  have hne : h ≠ ⟨task, s.generation task⟩ := by
    rintro rfl
    have hentry := hs.entry
    rw [ entry?, if_pos rfl, hnew] at hentry
    cases hentry
  exact ⟨(s.entry?_keep task entry h).trans ((if_neg hne).trans hs.entry), hs.generation_le⟩

/-- The entry that is kept for a task is the one that the handle of the task names. -/
theorem holds_register {task : TaskId} (hnew : s.handle? task = none) (entry : Entry) :
    (s.act (Aggregator.register task entry)).2.1.Holds ⟨task, s.generation task⟩ entry := by
  rw [act_register hnew]
  exact holds_handle ((Table.get?_insert ..).trans (if_pos rfl))

end Shared

/-! ### What a section does -/

/-- What a section may make of the state that operations share: it works on an entry, on a context or on the
numbers of the aggregator, or it leaves everything as it is. -/
inductive Call.Effect (s : Shared) : Call → Shared → Prop
  | nothing (c : Call) : Effect s c s
  | request (task : Task) : Effect s (.request task)
      (s.act (.change fun st => { st with invocations := st.invocations + 1 })).2.1
  | acquire (task : Task) : Effect s (.acquire task) (s.act (acquireParentContext task)).2.1
  | issue (task : Task) (context : Option FactorContext) :
      Effect s (.split task context) { s with state := { s.state with
        nextTask := s.state.nextTask + (factorize task.expression context).factors.length } }
  | register {task : Task} (children : List Task) (hnew : s.state.entries.get? task.id = none) :
      Effect s (.register task children)
        (s.keep task.id ⟨task.parent.map Task.id, .start children⟩)
  | giveBack {c : Call} (parent : Option TaskId) : Effect s c (s.act (releaseParentContext parent)).2.1
  | count (task : Task) (children : List Task) :
      Effect s (.count task children) (s.act (countSplit task.id children.length)).2.1
  | deliver {h : Handle} {e : Entry} (sub : TaskId) (n : Nat) (he : s.entry? h = some e) :
      Effect s (.deliver h sub n) (s.put h { e with aggregation := (e.aggregation.receive sub n).2 })
  | detach {task : TaskId} {e : Entry} (he : s.state.entries.get? task = some e) :
      Effect s (.forget task) (s.detach task)
  | drop (task : TaskId) : Effect s (.dropContext task)
      (s.act (.change fun st => { st with contexts := st.contexts.erase task })).2.1

/-- Issuing sub-tasks takes a number for each factor. -/
theorem Call.state_split (s : Shared) (task : Task) (context : Option FactorContext) :
    ((Call.split task context).step s).2.1.state = { s.state with
      nextTask := s.state.nextTask + (factorize task.expression context).factors.length } :=
  (issueChildren_eq task _ s.state).2

/-- **Every section** has one of these effects. -/
theorem Call.effect_step (s : Shared) (c : Call) : c.Effect s (c.step s).2.1 := by
  cases c with
  | request task => exact .request task
  | acquire task => exact .acquire task
  | split task context =>
    have heffect := Effect.issue (s := s) task context
    rw [← Call.state_split] at heffect
    exact heffect
  | register task children =>
    rw [Call.step]
    split
    · exact .nothing _
    · rename_i hnew
      dsimp only
      rw [Shared.act_register hnew]
      exact .register children (Shared.get?_entries_of_handle? hnew)
  | withdraw task _ | settle task => exact .giveBack (task.parent.map Task.id)
  | release parent _ | abandon parent _ => exact .giveBack parent
  | count task children => exact .count task children
  | notify task sub n =>
    rw [Call.step]
    split
    · exact .nothing _
    · rename_i hnew
      dsimp only
      rw [Shared.act_childDone hnew]
      exact .nothing _
  | deliver h sub n =>
    rw [Call.step]
    split
    · exact .nothing _
    · rename_i he
      exact .deliver sub n he
  | forget task =>
    rw [Call.step]
    split
    · rename_i hh
      obtain ⟨e, he, -⟩ := Option.map_eq_some_iff.mp hh
      exact .detach he
    · exact .nothing _
  | dropContext task => exact .drop task
  | lookUp _ | inspect _ =>
    rw [Call.step]
    split <;> exact .nothing _
  | readChildren _ | answered _ => exact .nothing _

/-! ### Sections -/

/-- The notification that the next section of an operation delivers to a handle. -/
def Call.delivery? (h : Handle) : Call → Option Aggregation.Notice
  | .deliver k sub n => if k = h then some ⟨sub, n⟩ else none
  | _ => none

theorem Call.eq_deliver_of_delivery? {h : Handle} {c : Call} {n : Aggregation.Notice}
    (hc : c.delivery? h = some n) : c = .deliver h n.sub n.count := by
  unfold Call.delivery? at hc
  split at hc
  · split at hc
    · rename_i hk
      obtain rfl := Option.some.inj hc
      rw [hk]
    · cases hc
  · cases hc

namespace Shared

variable {s : Shared} {h : Handle} {e : Entry}

/-- No section takes a generation back. -/
theorem generation_le_step (s : Shared) (c : Call) (task : TaskId) :
    s.generation task ≤ (c.step s).2.1.generation task := by
  have heffect := c.effect_step s
  generalize (c.step s).2.1 = t at heffect ⊢
  cases heffect with
  | deliver _ _ _ => exact Nat.le_of_eq (generation_put s _ _ task).symm
  | detach _ => exact generation_le_detach s _ task
  | _ => exact Nat.le_refl _

/-- A section that delivers nothing to a handle leaves the entry as it is. -/
theorem Holds.step_of_no_delivery (hs : s.Holds h e) {c : Call} (hc : c.delivery? h = none) :
    (c.step s).2.1.Holds h e := by
  have heffect := c.effect_step s
  generalize (c.step s).2.1 = t at heffect ⊢
  cases heffect with
  | nothing c => exact hs
  | request task => exact hs.act fun _ => rfl
  | acquire task => exact hs.act (keepsEntries_acquireParentContext task)
  | issue task context => exact ⟨hs.entry, hs.generation_le⟩
  | register children hnew => exact hs.keep hnew _
  | giveBack parent => exact hs.act (keepsEntries_releaseParentContext parent)
  | count task children => exact hs.act (keepsEntries_countSplit _ _)
  | @deliver k _ sub n _ =>
    have hk : k ≠ h := fun hk => by simp [Call.delivery?, hk] at hc
    exact hs.put_of_ne hk _
  | detach _ => exact hs.detach _
  | drop task => exact hs.act fun _ => rfl

/-- **Where an entry comes from**: a handle named it before the section, with fewer notifications perhaps, or
the section has registered a task. -/
theorem exists_of_entry?_step {c : Call} {e' : Entry} (h' : Shared.entry? (c.step s).2.1 h = some e') :
    (∃ e ns, s.entry? h = some e ∧ e' = e.after ns) ∨
      ∃ task children, c = .register task children ∧ s.state.entries.get? task.id = none ∧
        h.task = task.id ∧ e' = ⟨task.parent.map Task.id, .start children⟩ := by
  have hsame {e : Entry} (he : s.entry? h = some e) : ∃ e₀ ns, s.entry? h = some e₀ ∧ e = e₀.after ns :=
    ⟨e, [], he, rfl⟩
  have hact {α : Type} {x : Action α} (hx : x.KeepsEntries) (he : Shared.entry? (s.act x).2.1 h = some e') :
      s.entry? h = some e' := by
    have hkeep : (s.act x).2.1.state.entries = s.state.entries := hx s.state
    rw [← he, entry?, entry?, hkeep]
    rfl
  have heffect := c.effect_step s
  generalize (c.step s).2.1 = t at heffect h'
  cases heffect with
  | nothing c => exact .inl (hsame h')
  | request task => exact .inl (hsame (hact (fun _ => rfl) h'))
  | acquire task => exact .inl (hsame (hact (keepsEntries_acquireParentContext task) h'))
  | issue task context => exact .inl (hsame h')
  | @register task children hnew =>
    rw [Shared.entry?_keep] at h'
    split at h'
    · rename_i hh
      exact .inr ⟨task, children, rfl, hnew, congrArg Handle.task hh, (Option.some.inj h').symm⟩
    · exact .inl (hsame h')
  | giveBack parent => exact .inl (hsame (hact (keepsEntries_releaseParentContext parent) h'))
  | count task children => exact .inl (hsame (hact (keepsEntries_countSplit _ _) h'))
  | @deliver k e sub n he =>
    rw [Shared.entry?_put] at h'
    split at h'
    · rename_i hk
      exact .inl ⟨e, [⟨sub, n⟩], hk ▸ he, (Option.some.inj h').symm⟩
    · exact .inl (hsame h')
  | detach he =>
    rw [Shared.entry?_detach he] at h'
    split at h'
    · cases h'
    · exact .inl (hsame h')
  | drop task => exact .inl (hsame (hact (fun _ => rfl) h'))

/-- A section that delivers a notification to a handle. -/
theorem Holds.step_deliver (hs : s.Holds h e) (sub : TaskId) (count : Nat) :
    ((Call.deliver h sub count).step s).2.1.Holds h (e.after [⟨sub, count⟩]) := by
  simp only [Call.step, hs.entry]
  exact hs.put_self _

/-- **One section.**  An entry takes the notification that is delivered to its handle, and nothing else
changes it. -/
theorem Holds.step (hs : s.Holds h e) (c : Call) :
    (c.step s).2.1.Holds h (e.after (c.delivery? h).toList) := by
  cases hd : c.delivery? h with
  | none => exact hs.step_of_no_delivery hd
  | some n =>
    rw [Call.eq_deliver_of_delivery? hd]
    exact hs.step_deliver n.sub n.count

end Shared

end Aggregator

end SmtCount
